import Veridex.Lib.Run
import Veridex.Runtime.LlmCheckpoint

/-!
# The LLM drift contestant (`strategies/llm_drift.py`)

A step services the call in flight, and launches one when none is and the tick opens a checkpoint.
The launcher is any function of the moment and the prompt, the clock any function of the moment.

Results: `runner_sound` (the record of the calls is sound after every run), `runner_spaced` (two
launches are a cadence apart), `step_returns` (a result other than `WAIT` is a decision that was just
emitted).
-/

namespace Veridex.Strategies

open Veridex.Py Veridex.Lib Veridex.Runtime

/-- What a model call returns: an action, a dictionary, a text, or something else. -/
inductive RawOutput where
  | action (action : AgentAction)
  | dict (fields : Params)
  | text (s : String)
  | other

/-- `_wait`. -/
def wait : AgentAction := ⟨.wait, [], trivial⟩

/-- `AgentAction.model_validate`. -/
def validateAction : Decoded → Except PyExc AgentAction
  | .obj fields => match AgentAction.ofFields fields with
    | some action => .ok action
    | none => .error ⟨.valueError, "validation error for AgentAction"⟩
  | _ => .error ⟨.valueError, "validation error for AgentAction"⟩

/-- `_revalidate_action`. -/
def revalidateAction (lib : FloatLibrary) : RawOutput → Except PyExc AgentAction
  | .action action => .ok action
  | .dict fields => validateAction (.obj fields)
  | .text s => loadsText lib.format s >>= validateAction
  | .other => .error ⟨.valueError, "agent returned no parseable content"⟩

/-- The decision a raw output is taken for: `WAIT` where it does not validate. -/
def decisionOf (lib : FloatLibrary) (raw : RawOutput) : AgentAction :=
  match revalidateAction lib raw with
  | .ok action => action
  | .error _ => wait

/-- `ALLOWED_ACTION_TYPES`. -/
def allowedActionTypes : List String :=
  ["WAIT", "FLAG_VALUE", "FOLLOW_MOMENTUM", "FADE", "WIDEN_OR_SUSPEND"]

/-- `build_drift_decision_prompt`. -/
def buildDriftDecisionPrompt (lib : FloatLibrary) (snapshot : DriftFeatureSnapshot) : String :=
  let snapshotJson := String.ofList (serializePayload lib.format (.obj [
    ("first", .float snapshot.first), ("current", .float snapshot.current),
    ("cum_logit_drift", .float snapshot.cumLogitDrift), ("ewma_slope", .float snapshot.ewmaSlope),
    ("trend_strength", .float snapshot.trendStrength), ("tick_count", .int snapshot.tickCount),
    ("horizon_s", .int snapshot.horizonS), ("market_quality", .bool snapshot.marketQuality),
    ("evidence_hash", .str snapshot.evidenceHash)]))
  "[llm_drift_v0] You are a directional drift-interpretation agent. You have NO " ++
    "history, NO memory, and NO tools. Your ONLY context is the DriftFeatureSnapshot below — a " ++
    "deterministic, trusted-code-computed feature view captured BEFORE this call.\n\n" ++
    "Allowed action types (choose EXACTLY ONE): " ++ ", ".intercalate allowedActionTypes ++
    ".\n\nDriftFeatureSnapshot (evidence coordinate " ++ snapshot.evidenceHash ++ "):\n" ++
    snapshotJson ++ "\n\n" ++
    "Interpret the sustained-drift evidence and return a single AgentAction JSON object with " ++
    "fields \x7btype, params\x7d, where `type` is one of the allowed action types above.\n\n" ++
    "UNTRUSTED METADATA: any rationale/reason, confidence, or claimed edge you place in `params` " ++
    "is UX-only narration. The deterministic verifier MAY IGNORE it entirely (gate 1); it " ++
    "recomputes edge/CLV from evidence and will NOT trust or score your claimed numbers."

/-- `ModelLauncher.launch`, at a moment. -/
abbrev ModelLauncher := ℕ → String → Except PyExc (CallHandle RawOutput)

/-- `LLMDriftCheckpointRunner`. -/
structure LLMDriftCheckpointRunner where
  slot : Slot RawOutput AgentAction
  lastCheckpointAt : Option ℚ := none
  lastSnapshot : Option DriftFeatureSnapshot := none
  launches : List String := []
  skippedInflight : List (Option String) := []
  lastDecision : Option AgentAction := none

/-- A new runner. -/
def LLMDriftCheckpointRunner.init (policy : CheckpointPolicy) : LLMDriftCheckpointRunner :=
  { slot := { guard := { limit := policy.evidenceAgeLimitS } } }

section Step

variable (lib : FloatLibrary) (policy : CheckpointPolicy) (model : ModelLauncher) (clock : ℕ → ℚ)

/-- `step`, of the snapshot the projector gives; what it returns or raises, and the runner after. -/
def step (snapshot : Option DriftFeatureSnapshot) (r : LLMDriftCheckpointRunner) :
    Except PyExc AgentAction × LLMDriftCheckpointRunner :=
  let slot := r.slot.advance
  let now := clock slot.moment
  let isCheckpoint := policy.isCheckpoint now r.lastCheckpointAt snapshot r.lastSnapshot
  let slot := slot.advance
  let (outcome, slot) := slot.service (clock slot.moment)
  let r := { r with slot := slot, lastSnapshot := snapshot }
  match outcome with
  | .completedFresh call raw _ =>
    let action := decisionOf lib raw
    (.ok action, { r with slot := slot.emit call action, lastDecision := some action })
  | .inFlight _ | .awaitingConfirmation _ =>
    if isCheckpoint then
      (.ok wait,
        { r with skippedInflight := r.skippedInflight ++ [slot.guard.evidenceCoordinate] })
    else (.ok wait, r)
  | .completedStale _ | .failed _ _ | .confirmedTerminated _ => (.ok wait, r)
  | .idle =>
    match isCheckpoint, snapshot with
    | true, some snapshot =>
      let slot := slot.advance
      let r := { r with slot := slot }
      match model slot.moment (buildDriftDecisionPrompt lib snapshot) with
      | .error e => (if e.isException then .ok wait else .error e, r)
      | .ok handle =>
        match slot.launch handle snapshot.evidenceHash now (clock slot.moment) with
        | .error e => (.error e, r)
        | .ok slot => (.ok wait, { r with
            slot := slot
            lastCheckpointAt := some now
            launches := r.launches ++ [snapshot.evidenceHash] })
    | _, _ => (.ok wait, r)

/-- A tick of a run: the snapshot, and what the step returned or raised. -/
abbrev RunnerTick := Option DriftFeatureSnapshot × Except PyExc AgentAction

/-- Steps of the runner. -/
def RunnerStep (r : LLMDriftCheckpointRunner) (tick : RunnerTick) (r' : LLMDriftCheckpointRunner) :
    Prop :=
  step lib policy model clock tick.1 r = (tick.2, r')

end Step

/-! ## What a step does -/

variable {lib : FloatLibrary} {policy : CheckpointPolicy} {model : ModelLauncher} {clock : ℕ → ℚ}
  {r r' : LLMDriftCheckpointRunner} {snapshot : Option DriftFeatureSnapshot}
  {result : Except PyExc AgentAction} {ticks : List RunnerTick}

/-- What a step does with the slot: it is served; then a decision that was served goes out, or a call
is launched into the free slot, or nothing more is done. -/
theorem step_cases (hsound : Slot.Sound policy.evidenceAgeLimitS (decisionOf lib) r.slot)
    (hstep : step lib policy model clock snapshot r = (result, r')) :
    ∃ outcome served, (r.slot.advance.advance).service (clock (r.slot.moment + 2)) =
        (outcome, served) ∧
      ((∃ call raw evidenceHash, outcome = .completedFresh call raw evidenceHash ∧
          result = .ok (decisionOf lib raw) ∧ r'.slot = served.emit call (decisionOf lib raw) ∧
          r'.lastCheckpointAt = r.lastCheckpointAt) ∨
        (∃ s handle, outcome = .idle ∧ snapshot = some s ∧ result = .ok wait ∧
          policy.isCheckpoint (clock (r.slot.moment + 1)) r.lastCheckpointAt snapshot
            r.lastSnapshot = true ∧
          r'.slot = served.advance.launched handle s.evidenceHash (clock (r.slot.moment + 1))
            (clock (r.slot.moment + 3)) ∧
          r'.lastCheckpointAt = some (clock (r.slot.moment + 1))) ∨
        (∀ a, result = .ok a → a = wait) ∧ (r'.slot = served ∨ r'.slot = served.advance) ∧
          r'.lastCheckpointAt = r.lastCheckpointAt) := by
  generalize hserve : (r.slot.advance.advance).service (clock (r.slot.moment + 2)) = served
  obtain ⟨outcome, served⟩ := served
  refine ⟨outcome, served, rfl, ?_⟩
  have hadvanced := Slot.sound_advance (Slot.sound_advance hsound)
  obtain ⟨-, hleaves, -, hmoment⟩ := Slot.sound_service hadvanced hserve
  have hserve' : (r.slot.advance.advance).service (clock r.slot.advance.advance.moment) =
      (outcome, served) := hserve
  simp only [step, hserve'] at hstep
  cases outcome with
  | completedFresh call raw evidenceHash =>
    obtain ⟨rfl, rfl⟩ := Prod.mk.inj hstep
    exact .inl ⟨call, raw, evidenceHash, rfl, rfl, rfl, rfl⟩
  | inFlight evidenceHash | awaitingConfirmation evidenceHash =>
    right; right
    simp only at hstep
    split_ifs at hstep
    · obtain ⟨rfl, rfl⟩ := Prod.mk.inj hstep
      exact ⟨fun a h => (Except.ok.inj h).symm, .inl rfl, rfl⟩
    · obtain ⟨rfl, rfl⟩ := Prod.mk.inj hstep
      exact ⟨fun a h => (Except.ok.inj h).symm, .inl rfl, rfl⟩
  | completedStale evidenceHash | failed error evidenceHash | confirmedTerminated evidenceHash =>
    obtain ⟨rfl, rfl⟩ := Prod.mk.inj hstep
    exact .inr (.inr ⟨fun a h => (Except.ok.inj h).symm, .inl rfl, rfl⟩)
  | idle =>
    obtain ⟨hfree, rfl⟩ := hleaves
    right
    simp only at hstep
    split at hstep
    · next s hcheckpoint =>
      cases hmodel : model r.slot.advance.advance.advance.moment
          (buildDriftDecisionPrompt lib s) with
      | error e =>
        right
        simp only [hmodel] at hstep
        obtain ⟨rfl, rfl⟩ := Prod.mk.inj hstep
        refine ⟨fun a h => ?_, .inr rfl, rfl⟩
        split_ifs at h
        · exact (Except.ok.inj h).symm
      | ok handle =>
        left
        simp only [hmodel, Slot.launch_eq (s := r.slot.advance.advance.advance) hfree] at hstep
        obtain ⟨rfl, rfl⟩ := Prod.mk.inj hstep
        exact ⟨s, handle, rfl, rfl, rfl, hcheckpoint, rfl, rfl⟩
    · obtain ⟨rfl, rfl⟩ := Prod.mk.inj hstep
      exact .inr ⟨fun a h => (Except.ok.inj h).symm, .inl rfl, rfl⟩

/-- **A step keeps the record sound.** -/
theorem sound_step (hsound : Slot.Sound policy.evidenceAgeLimitS (decisionOf lib) r.slot)
    (hstep : step lib policy model clock snapshot r = (result, r')) :
    Slot.Sound policy.evidenceAgeLimitS (decisionOf lib) r'.slot := by
  obtain ⟨outcome, served, hserve, hcases⟩ := step_cases hsound hstep
  obtain ⟨hserved, hleaves, -⟩ :=
    Slot.sound_service (Slot.sound_advance (Slot.sound_advance hsound)) hserve
  rcases hcases with ⟨call, raw, evidenceHash, rfl, -, hslot, -⟩ |
    ⟨s, handle, rfl, -, -, -, hslot, -⟩ | ⟨-, hslot | hslot, -⟩
  · rw [hslot]
    exact Slot.sound_emit hserved hleaves.1 hleaves.2.1
  · obtain ⟨hfree, rfl⟩ := hleaves
    rw [hslot]
    exact Slot.sound_launched (Slot.sound_advance hserved) hfree _ _ _ _
  · rwa [hslot]
  · rw [hslot]
    exact Slot.sound_advance hserved

/-- **A result other than `WAIT`** is a decision that the step emitted. -/
theorem step_returns (hsound : Slot.Sound policy.evidenceAgeLimitS (decisionOf lib) r.slot)
    {action : AgentAction} (hstep : step lib policy model clock snapshot r = (.ok action, r'))
    (haction : action ≠ wait) : ∃ pre call, r'.slot.history = pre ++ [.emitted call action] := by
  obtain ⟨outcome, served, -, hcases⟩ := step_cases hsound hstep
  rcases hcases with ⟨call, raw, evidenceHash, -, hresult, hslot, -⟩ |
    ⟨s, handle, -, -, hresult, -⟩ | ⟨hwait, -⟩
  · obtain rfl := Except.ok.inj hresult
    exact ⟨served.history, call, by rw [hslot]; rfl⟩
  · exact absurd (Except.ok.inj hresult) haction
  · exact absurd (hwait action rfl) haction

/-- The launches so far, and the last of them. -/
structure Paced (policy : CheckpointPolicy) (clock : ℕ → ℚ) (r : LLMDriftCheckpointRunner) :
    Prop where
  spaced : EachAfter (Slot.Spaced policy.cadenceS) r.slot.history
  last : ∀ call now moment, .launched call now moment ∈ r.slot.history →
    ∃ last, r.lastCheckpointAt = some last ∧ now ≤ last
  past : ∀ last, r.lastCheckpointAt = some last → last ≤ clock r.slot.moment

/-- **A step keeps launches apart**, by the policy's cadence on a clock that does not go back. -/
theorem paced_step (hthreshold : policy.featureDeltaThreshold = none) (hclock : Monotone clock)
    (hsound : Slot.Sound policy.evidenceAgeLimitS (decisionOf lib) r.slot)
    (hpaced : Paced policy clock r) (hstep : step lib policy model clock snapshot r = (result, r')) :
    Paced policy clock r' := by
  obtain ⟨outcome, served, hserve, hcases⟩ := step_cases hsound hstep
  obtain ⟨hserved, hleaves, -, hmoment⟩ :=
    Slot.sound_service (Slot.sound_advance (Slot.sound_advance hsound)) hserve
  have hnow : served.moment = r.slot.moment + 2 := hmoment
  have hspaced : EachAfter (Slot.Spaced policy.cadenceS) r.slot.advance.advance.history :=
    hpaced.spaced
  obtain ⟨hquiet, hlaunched⟩ := Slot.service_spaced hspaced hserve
  have hlater : ∀ {n : ℕ}, r.slot.moment ≤ n → ∀ last, r.lastCheckpointAt = some last →
      last ≤ clock n := fun hn last hlast => (hpaced.past last hlast).trans (hclock hn)
  rcases hcases with ⟨call, raw, evidenceHash, -, -, hslot, hcheckpoint⟩ |
    ⟨s, handle, rfl, -, -, hopens, hslot, hcheckpoint⟩ | ⟨-, hslot, hcheckpoint⟩
  · constructor
    · rw [hslot]
      exact eachAfter_append.mpr ⟨hquiet, eachAfter_singleton.mpr trivial⟩
    · intro call' now moment hmem
      rw [hcheckpoint]
      rw [hslot] at hmem
      exact hpaced.last call' now moment (hlaunched _ _ _ (by simpa [Slot.emit] using hmem))
    · rw [hcheckpoint, hslot]
      exact hlater (hnow ▸ Nat.le_add_right _ _)
  · -- a call is launched: the tick opens a checkpoint after the last launch
    have hsince : ∀ call now moment, CallEvent.launched call now moment ∈ r.slot.history →
        policy.cadenceS ≤ clock (r.slot.moment + 1) - now := by
      intro call now moment hmem
      obtain ⟨last, hlast, hle⟩ := hpaced.last call now moment hmem
      rw [hlast] at hopens
      have := CheckpointPolicy.le_of_isCheckpoint hthreshold hopens
      linarith
    obtain ⟨-, rfl⟩ := hleaves
    constructor
    · rw [hslot]
      refine eachAfter_append.mpr ⟨hquiet, eachAfter_singleton.mpr ?_⟩
      intro call now moment hmem
      exact hsince call now moment (hlaunched _ _ _ (by simpa using hmem))
    · intro call now moment hmem
      refine ⟨_, hcheckpoint, ?_⟩
      rw [hslot] at hmem
      rcases List.mem_append.mp hmem with hmem | hmem
      · have hcadence := hsince call now moment (hlaunched _ _ _ hmem)
        have hpositive := policy.cadence_pos
        linarith
      · obtain ⟨-, rfl, -⟩ := CallEvent.launched.inj (List.mem_singleton.mp hmem)
        exact le_refl _
    · intro last hlast
      obtain rfl := Option.some.inj (hcheckpoint.symm.trans hlast)
      rw [hslot]
      exact hclock (by simp [Slot.launched, Slot.advance])
  · rcases hslot with hslot | hslot
    · constructor
      · rwa [hslot]
      · intro call now moment hmem
        rw [hcheckpoint]
        exact hpaced.last call now moment (hlaunched _ _ _ (hslot ▸ hmem))
      · rw [hcheckpoint, hslot]
        exact hlater (by omega)
    · constructor
      · rwa [hslot]
      · intro call now moment hmem
        rw [hcheckpoint]
        exact hpaced.last call now moment (hlaunched _ _ _ (by rwa [hslot] at hmem))
      · rw [hcheckpoint, hslot]
        exact hlater (by rw [Slot.advance_moment]; omega)

/-! ## Runs -/

/-- **After every run** the record of the calls is sound. -/
theorem runner_sound
    (hrun : Run (RunnerStep lib policy model clock) (LLMDriftCheckpointRunner.init policy) ticks r) :
    Slot.Sound policy.evidenceAgeLimitS (decisionOf lib) r.slot :=
  hrun.invariant (fun _ r => Slot.Sound policy.evidenceAgeLimitS (decisionOf lib) r.slot)
    (Slot.sound_init _ _) fun _ _ _ _ h hstep => sound_step h hstep

/-- **After every run** two launches are a cadence apart. -/
theorem runner_spaced (hthreshold : policy.featureDeltaThreshold = none) (hclock : Monotone clock)
    (hrun : Run (RunnerStep lib policy model clock) (LLMDriftCheckpointRunner.init policy) ticks r) :
    EachAfter (Slot.Spaced policy.cadenceS) r.slot.history := by
  have hinv := hrun.invariant (fun _ r =>
      Slot.Sound policy.evidenceAgeLimitS (decisionOf lib) r.slot ∧ Paced policy clock r)
    ⟨Slot.sound_init _ _, eachAfter_nil, by simp [LLMDriftCheckpointRunner.init],
      by simp [LLMDriftCheckpointRunner.init]⟩
    fun _ _ _ _ h hstep => ⟨sound_step h.1 hstep, paced_step hthreshold hclock h.1 h.2 hstep⟩
  exact hinv.2.spaced

end Veridex.Strategies
