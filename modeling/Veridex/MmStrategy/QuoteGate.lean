import Veridex.MmStrategy.Runs
import Veridex.MmStrategy.Placements

/-!
# The master quote gate

A decision of a run that places a quote was taken on a frame that passed every gate of the core:
those of the watermark layer and of the classification, read on the state before the frame, and those
of the blockers and of the disposition, read on the state the watermark layer advanced
(`runs_gated`). `QuoteGates` lists them.
-/

namespace Veridex.MmStrategy

open Veridex.Py Veridex.Lib

/-- What the guard grants a placement outside the inventory branch: the FV leg is present and fresh,
its residual is moderate, and nothing is placed on the side the residual pulls. -/
def GuardGranted (platform : Platform) (config : StrategyConfig) (observation : StrategyObservation)
    (base : StrategyState) (anchor : ℚ) (decision : StrategyDecision) : Prop :=
  ∃ guardFv estimate, observation.guardFv = some guardFv ∧
    fvIsStale observation config guardFv = false ∧
    basisFromState platform.halfPow base config = .ok estimate ∧
    PyFloat.lt (.fin |residual (guardFv.fv - anchor) estimate|)
      (config.extremeMultiple.mul config.residualBand) = true ∧
    ∀ pulled, residualSide config (residual (guardFv.fv - anchor) estimate) = some pulled →
      ¬ decision.PlacesOn pulled

/-- The gates of a frame whose decision places. `state` is the state before the frame. -/
structure QuoteGates (platform : Platform) (config : StrategyConfig)
    (observation : StrategyObservation) (state : StrategyState) (decision : StrategyDecision) :
    Prop where
  /-- Accepted by the watermark layer, and not as a book-epoch reconnect. -/
  accepted : ∃ fvReset, admission observation state config = .pass fvReset
  sameBookEpoch : state.lastBookSourceEpoch = some observation.bookSourceEpoch
  bookOk : observation.bookStatus = .ok
  bookFresh : bookIsStale observation config = false
  legsAligned : legIsSkewed observation config = false
  sameTickRegime : observation.tickRegimeChanged = false
  samePhase : phaseTransition observation state = false
  notReopened : suspensionReopen observation state = false
  notAfterGap : gapEpisodeEnd observation state = false
  statusActive : effectiveMarketStatus observation state config = .active
  streamOk : observation.orderStreamOk = true
  projectionFresh : observation.projectionFresh = true
  tokenMapped : strip observation.tokenId ≠ ""
  notSuspended : observation.suspended = false
  /-- The smoother and both references, before the frame. -/
  warm : state.smootherMid ≠ none ∧ config.refMinSamples ≤ state.spreadRefSamples.length ∧
    config.refMinSamples ≤ state.depthRefSamples.length
  cooldownElapsed : ∀ deadline ∈ state.eventCooldownUntilTs, deadline ≤ observation.asOfTs
  depthReached : ∃ depth, topDepth observation = some depth ∧
    config.minTopDepth.le (.fin depth) = true
  levelsReached : config.minLevelCount ≤ observation.levelCountInBand
  /-- Past the soft limit only the reducing side is placed. -/
  reducingOnly : config.inventorySoftLimit.le (.fin |observation.inventory.netPosition|) = true →
    ∀ side, decision.PlacesOn side → side = reducingLeg observation.inventory.netPosition
  /-- The anchor is in the boundary zone; outside the inventory branch a guard with a warm basis
  granted the placement. -/
  anchored : ∃ anchor, mid observation = some anchor ∧
    config.boundaryZone.1 ≤ anchor ∧ anchor ≤ config.boundaryZone.2 ∧
    (config.guardEnabled = true → basisIsWarm (advancedBase observation state config) config = true →
      ¬ InventoryBranch observation config anchor →
      GuardGranted platform config observation (advancedBase observation state config) anchor decision)

variable {platform : Platform} {config : StrategyConfig} {sessionId : String}
  {observation : StrategyObservation} {state base : StrategyState} {anchor : ℚ}
  {decision : StrategyDecision}

/-! ## The blockers -/

/-- Nothing blocks: a token, an active status, a healthy stream, a fresh projection and a live
match. -/
theorem quoteBlocker_none (h : quoteBlocker observation base config = none) :
    strip observation.tokenId ≠ "" ∧ effectiveMarketStatus observation base config = .active ∧
      observation.orderStreamOk = true ∧ observation.projectionFresh = true ∧
      observation.suspended = false := by
  unfold quoteBlocker at h
  rw [Option.or_eq_none_iff, Option.or_eq_none_iff] at h
  obtain ⟨htoken, hstatus, hsuspended⟩ := h
  have hlive : observation.suspended = false := by
    unfold suspendedBlockReason at hsuspended
    by_contra hsusp
    rw [Bool.not_eq_false] at hsusp
    simp [hsusp] at hsuspended
  have hmapped : strip observation.tokenId ≠ "" := by
    intro hblank
    unfold tokenMappingReason at htoken
    simp [hblank] at htoken
  unfold statusStreamReason at hstatus
  cases heffective : effectiveMarketStatus observation base config with
  | active =>
    simp only [heffective] at hstatus
    by_cases hstream : observation.orderStreamOk = true
    · by_cases hprojection : observation.projectionFresh = true
      · exact ⟨hmapped, rfl, hstream, hprojection, hlive⟩
      · simp [hstream, hprojection] at hstatus
    · simp [hstream] at hstatus
  | halted => simp [heffective] at hstatus
  | closed => simp [heffective] at hstatus
  | unknown => simp [heffective] at hstatus

/-! ## The disposition -/

/-- The extreme bound is a number, so a residual not past it is below it. -/
theorem moderate_lt {residual : ℚ}
    (h : (config.extremeMultiple.mul config.residualBand).le (.fin |residual|) = false) :
    PyFloat.lt (.fin |residual|) (config.extremeMultiple.mul config.residualBand) = true := by
  have hmultiple : PyFloat.lt (.fin 0) config.extremeMultiple = true :=
    PyFloat.lt_of_fin_le (by norm_num) config.extremeMultiple_gt
  have hpos := PyFloat.mul_pos hmultiple config.residualBand_pos
  exact PyFloat.lt_of_not_le (PyFloat.ne_nan_of_lt hpos) h

/-- A guard that allows the quote granted it, where it speaks. -/
theorem GuardAllows.granted {pulled : Option Side}
    (h : GuardAllows platform.halfPow observation base config anchor pulled)
    (hguard : config.guardEnabled = true) (hwarm : basisIsWarm base config = true)
    (hplaces : ∀ side, pulled = some side → ¬ decision.PlacesOn side) :
    GuardGranted platform config observation base anchor decision := by
  cases h with
  | inert h => simp [hguard, hwarm] at h
  | speaks value warm present prematch spoken moderate =>
    obtain ⟨guardFv, estimate, hfv, hfresh, hestimate, hvalue⟩ :=
      guardResidual_speaks warm present spoken
    obtain rfl := Option.some.inj hvalue
    exact ⟨guardFv, estimate, hfv, hfresh, hestimate, moderate_lt moderate, hplaces⟩

/-- What a placement keeps of the inventory and the guard. -/
theorem Placement.gates (h : Placement platform.halfPow observation base config decision) :
    (config.inventorySoftLimit.le (.fin |observation.inventory.netPosition|) = true →
      ∀ side, decision.PlacesOn side → side = reducingLeg observation.inventory.netPosition) ∧
    ∃ anchor, Anchored observation config anchor ∧
      (config.guardEnabled = true → basisIsWarm base config = true →
        ¬ InventoryBranch observation config anchor →
        GuardGranted platform config observation base anchor decision) := by
  cases h with
  | reduce anchor toxic leg anchored branch guard safe priced =>
    refine ⟨fun _ side hside => ?_, anchor, anchored, fun _ _ hbranch => absurd branch hbranch⟩
    obtain ⟨leg', hleg, rfl⟩ := placesOn_quoteDecision.mp hside
    rw [List.mem_singleton.mp hleg]
    exact sideLeg_side priced
  | pull anchor pulled leg anchored branch guard priced =>
    refine ⟨fun hlimit => ?_, anchor, anchored, fun hguard hwarm _ => ?_⟩
    · rw [branch.1] at hlimit
      cases hlimit
    · refine guard.granted hguard hwarm fun side hside hplaced => ?_
      obtain rfl := Option.some.inj hside
      obtain ⟨leg', hleg, hpulled⟩ := placesOn_quoteDecision.mp hplaced
      rw [List.mem_singleton.mp hleg, sideLeg_side priced] at hpulled
      cases pulled <;> cases hpulled
  | twoSided anchor bid ask anchored branch guard bidPriced askPriced =>
    refine ⟨fun hlimit => ?_, anchor, anchored, fun hguard hwarm _ => ?_⟩
    · rw [branch.1] at hlimit
      cases hlimit
    · exact guard.granted hguard hwarm fun side hside => nomatch hside
  | clamped anchor side leg anchored branch guard priced omitted =>
    refine ⟨fun hlimit => ?_, anchor, anchored, fun hguard hwarm _ => ?_⟩
    · rw [branch.1] at hlimit
      cases hlimit
    · exact guard.granted hguard hwarm fun side hside => nomatch hside

/-! ## The gate -/

/-- A step that places passed every gate. -/
theorem DecideStep.gated {frame : Frame} {nextState : StrategyState}
    (h : DecideStep platform config sessionId state frame nextState) (hplaces : frame.2.Places) :
    QuoteGates platform config frame.1 state frame.2 := by
  obtain ⟨hquotable, disposition, hdisposition, hdecision⟩ := h.places hplaces
  obtain ⟨fvReset, hverdict⟩ := hquotable.passes
  obtain ⟨hepoch, -⟩ := admission_pass_iff.mp hverdict
  obtain ⟨row, hrow⟩ : ∃ row, classifyRow frame.1 state config = .ok row := classifyRow_ok
  have hadmits := hquotable.of_row hrow
  -- the row: neither a reset nor an event, and below them warm, fresh and past the cooldown
  obtain ⟨rfl, -⟩ | ⟨rfl, -⟩ | ⟨hbelow, hnoReset, hbook, -⟩ := classifyRow_cases hrow
  · simp at hadmits
  · simp at hadmits
  obtain ⟨hD, -⟩ | ⟨hfresh, haligned, ⟨hC, -⟩ | ⟨hcool, hbelow'⟩⟩ :=
    rowBelowEvent_cases frame.1 state config
  · rw [hbelow, hD] at hadmits
    simp at hadmits
  · rw [hbelow, hC] at hadmits
    simp at hadmits
  have hwarm : referencesWarm state config = true := by
    obtain hH | ⟨-, hwarm⟩ := hadmits
    · obtain ⟨hF, -⟩ | ⟨-, ⟨hW, -⟩ | ⟨-, hwarm⟩⟩ := hbelow'
      · rw [hbelow, hF] at hH
        cases hH
      · rw [hbelow, hW] at hH
        cases hH
      · exact hwarm
    · exact hwarm
  obtain ⟨htoken, hstatus, hstream, hprojection, hlive⟩ :=
    quoteBlocker_none hquotable.unblocked
  rw [advancedBase, effectiveMarketStatus_accept] at hstatus
  -- the disposition: what is placed is a placement of the spine
  have hplaced : disposition.Places := by rwa [hdecision, places_stampIdentity] at hplaces
  have hsides : ∀ side, frame.2.PlacesOn side ↔ disposition.PlacesOn side := by
    intro side
    rw [hdecision, placesOn_stampIdentity]
  obtain habstains | hplacement := quoteDisposition_cases hdisposition
  · exact absurd hplaced habstains.not_places
  obtain ⟨hreducing, anchor, hanchored, hguard⟩ := hplacement.gates
  obtain ⟨hmid, depth, hdepth, hfloor, hlevels⟩ := venueAnchor_some hanchored.1
  simp only [resetTriggered, Bool.or_eq_false_iff] at hnoReset
  obtain ⟨⟨⟨htick, hphase⟩, hreopen⟩, hgap⟩ := hnoReset
  refine ⟨⟨_, hverdict⟩, hepoch, hbook, hfresh, haligned, htick, hphase, hreopen, hgap, hstatus,
    hstream, hprojection, htoken, hlive, referencesWarm_iff.mp hwarm, ?_, ⟨depth, hdepth, hfloor⟩,
    hlevels, ?_, anchor, hmid, hanchored.2.1, hanchored.2.2, ?_⟩
  · intro deadline hdeadline
    unfold cooldownActive at hcool
    rw [hdeadline] at hcool
    simpa using hcool
  · intro hlimit side hside
    exact hreducing hlimit side ((hsides side).mp hside)
  · intro hon hbasis hbranch
    obtain ⟨guardFv, estimate, hfv, hstale, hestimate, hlt, hpull⟩ := hguard hon hbasis hbranch
    exact ⟨guardFv, estimate, hfv, hstale, hestimate, hlt, fun pulled hside hplaced =>
      hpull pulled hside ((hsides pulled).mp hplaced)⟩

/-- **The master quote gate**: in a run of `decide` from `StrategyState()`, a decision that places a
quote was taken on a frame that passed every gate. -/
theorem runs_gated {before after : List Frame} {frame : Frame} {last : StrategyState}
    (h : StrategyRun platform config sessionId {} (before ++ frame :: after) last)
    (hplaces : frame.2.Places) :
    ∃ state, StrategyRun platform config sessionId {} before state ∧
      QuoteGates platform config frame.1 state frame.2 := by
  obtain ⟨state, nextState, hbefore, hstep, -⟩ := h.step_at
  exact ⟨state, hbefore, hstep.gated hplaces⟩

/-- A healthy frame with a fair value at its mid. -/
def fairFrame (sequence asOfTs : ℤ) : StrategyObservation :=
  { healthyFrame sequence asOfTs (48 / 100) (52 / 100) [] with
    guardFv := some
      { fv := 1 / 2, fvSourceTs := 0, fvRecvTs := asOfTs, fvSourceEpoch := 0,
        messageId := some "f", proofStatus := .proven, proof_honest := by simp }
    fvRecvTs_le := by simp [healthyFrame] }

/-- The third frame of a guarded run quotes both sides, with the guard speaking. -/
theorem runs_gated_guarded : ∃ (before : List Frame) (frame : Frame) (state : StrategyState),
    frame.2.Places ∧ StrategyRun flatPlatform (promptConfig true) "" {} before state ∧
    QuoteGates flatPlatform (promptConfig true) frame.1 state frame.2 := by
  have hplans : (decideAll flatPlatform (promptConfig true) "" {}
      [fairFrame 0 0, fairFrame 1 1, fairFrame 2 2]).map
      (fun result => result.1.map fun decision => decision.intentPlan.map NeutralIntent.kind) =
        .ok [[], [], [.placeQuote, .placeQuote]] := by decide +kernel
  obtain ⟨frames, last, -, hkinds, hrun⟩ := run_of_view hplans
  obtain ⟨first, second, frame, rfl⟩ := List.length_eq_three.mp
    (by simpa using congrArg List.length hkinds)
  simp only [List.map_cons, List.map_nil, List.cons.injEq, and_true] at hkinds
  have hframe : frame.2.intentPlan.map NeutralIntent.kind = [.placeQuote, .placeQuote] := hkinds.2.2
  have hplaces : frame.2.Places := by
    have hmem : NeutralIntentKind.placeQuote ∈ frame.2.intentPlan.map NeutralIntent.kind := by
      rw [hframe]
      simp
    exact List.mem_map.mp hmem
  have hcut : StrategyRun flatPlatform (promptConfig true) "" {} ([first, second] ++ frame :: [])
      last := hrun
  obtain ⟨state, hbefore, hgates⟩ := runs_gated hcut hplaces
  exact ⟨[first, second], frame, state, hplaces, hbefore, hgates⟩

end Veridex.MmStrategy
