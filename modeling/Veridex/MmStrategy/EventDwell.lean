import Veridex.MmStrategy.QuoteGate
import Veridex.MmStrategy.WatermarkRuns

/-!
# The dwell after an event

Row R, row E and a book-epoch reconnect anchor a cooldown of `book_state_dwell_before_quote_ms` at
the frame's `as_of_ts`. The deadline is one field that later frames overwrite, clear or carry.
`Dwelling` is what survives them all: the deadline reaches past the dwell, or the clock does. It
carries over every frame (`Moves.dwelling`), and no frame that reads before the dwell's end places
while it holds (`DecideStep.dwells`).
-/

namespace Veridex.MmStrategy

open Veridex.Py Veridex.Lib

variable {platform : Platform} {config : StrategyConfig} {sessionId : String}
  {observation : StrategyObservation} {state nextState : StrategyState}
  {decision : StrategyDecision}

/-- The frame anchors a cooldown: a reconnect, or row R or E. -/
def Anchors (observation : StrategyObservation) (state : StrategyState)
    (config : StrategyConfig) : Prop :=
  admission observation state config = .reconnect ∨
    ∃ fvReset, admission observation state config = .pass fvReset ∧
      (classifyRow observation state config = .ok .R ∨
        classifyRow observation state config = .ok .E)

/-- The dwell of an event at `anchor` is owed by the cooldown, or the clock is past it. -/
def Dwelling (config : StrategyConfig) (anchor : ℤ) (state : StrategyState) : Prop :=
  ∃ asOfTs ∈ state.lastAsOfTs, anchor ≤ asOfTs ∧
    ((∃ deadline ∈ state.eventCooldownUntilTs,
        anchor + config.bookStateDwellBeforeQuoteMs ≤ deadline) ∨
      anchor + config.bookStateDwellBeforeQuoteMs ≤ asOfTs)

/-! ## The cooldown field -/

/-- A frame in one of the admitting rows is past the cooldown. -/
theorem cooldown_elapsed_of_admits {row : Row}
    (h : classifyRow observation state config = .ok row) (hadmits : row = .F ∨ row = .W ∨ row = .H) :
    cooldownActive observation state = false := by
  obtain ⟨rfl, -⟩ | ⟨rfl, -⟩ | ⟨hbelow, -⟩ := classifyRow_cases h
  · simp at hadmits
  · simp at hadmits
  · obtain ⟨hD, -⟩ | ⟨-, -, ⟨hC, -⟩ | ⟨helapsed, -⟩⟩ := rowBelowEvent_cases observation state config
    · rw [hbelow, hD] at hadmits
      simp at hadmits
    · rw [hbelow, hC] at hadmits
      simp at hadmits
    · exact helapsed

/-- What one frame makes of the cooldown: it is carried, anchored at the frame, or cleared once it
elapsed. -/
theorem Moves.cooldown (h : Moves platform observation state config decision nextState) :
    nextState.eventCooldownUntilTs = state.eventCooldownUntilTs ∨
    nextState.eventCooldownUntilTs = some (cooldownDeadline observation config) ∨
    (nextState.eventCooldownUntilTs = none ∧ cooldownActive observation state = false) := by
  cases h with
  | coldStart => exact .inl (by simp)
  | rejected => exact .inl rfl
  | reconnect => exact .inr (.inl (by simp))
  | reset => exact .inr (.inl (by simp))
  | event => exact .inr (.inl (by simp))
  | degraded => exact .inl (by simp)
  | cooling => exact .inl (by simp)
  | healthy fvReset row decision verdict classified admits =>
    exact .inr (.inr ⟨by simp, cooldown_elapsed_of_admits classified admits⟩)

/-- A frame that anchors and is put in a row is in row R or E. -/
theorem Anchors.row {fvReset : Bool} {row : Row} (h : Anchors observation state config)
    (hverdict : admission observation state config = .pass fvReset)
    (hrow : classifyRow observation state config = .ok row) : row = .R ∨ row = .E := by
  obtain hreconnect | ⟨-, -, hR | hE⟩ := h
  · rw [hverdict] at hreconnect
    cases hreconnect
  · exact .inl (Except.ok.inj (hrow.symm.trans hR))
  · exact .inr (Except.ok.inj (hrow.symm.trans hE))

/-- A frame that anchors sets the deadline, and quotes nothing. -/
theorem Moves.anchored (h : Moves platform observation state config decision nextState)
    (hanchors : Anchors observation state config) :
    nextState.eventCooldownUntilTs = some (cooldownDeadline observation config) ∧
      nextState.lastAsOfTs = some observation.asOfTs ∧ Idle decision := by
  cases h with
  | reconnect => exact ⟨rfl, rfl, rfl, .inl rfl⟩
  | reset fvReset => cases fvReset <;> exact ⟨rfl, rfl, rfl, .inl rfl⟩
  | event fvReset => cases fvReset <;> exact ⟨rfl, rfl, rfl, .inl rfl⟩
  | coldStart verdict =>
    obtain hreconnect | ⟨fvReset, hpass, -⟩ := hanchors
    · rw [verdict] at hreconnect
      cases hreconnect
    · rw [verdict] at hpass
      cases hpass
  | rejected reason verdict =>
    obtain hreconnect | ⟨fvReset, hpass, -⟩ := hanchors
    · rw [hreconnect] at verdict
      cases verdict
    · rw [hpass] at verdict
      cases verdict
  | degraded fvReset reasons verdict row =>
    obtain hR | hE := hanchors.row verdict row
    · cases hR
    · cases hE
  | cooling fvReset verdict row =>
    obtain hR | hE := hanchors.row verdict row
    · cases hR
    · cases hE
  | healthy fvReset row decision verdict classified admits =>
    obtain rfl | rfl := hanchors.row verdict classified
    · simp at admits
    · simp at admits

/-! ## One frame -/

/-- **The dwell carries over a frame.** -/
theorem Moves.dwelling {anchor : ℤ}
    (h : Moves platform observation state config decision nextState) (hseeded : state.Seeded)
    (hdwelling : Dwelling config anchor state) : Dwelling config anchor nextState := by
  obtain ⟨asOfTs, hasOfTs, hanchor, howed⟩ := hdwelling
  obtain ⟨-, rfl⟩ | ⟨haccepted, hwatermark⟩ := h.accepted
  · exact ⟨asOfTs, hasOfTs, hanchor, howed⟩
  · simp only [StrategyState.watermark, Watermark.mk.injEq] at hwatermark
    have hclock : asOfTs ≤ observation.asOfTs := clock_le haccepted hseeded asOfTs hasOfTs
    refine ⟨observation.asOfTs, hwatermark.2.2.1, hanchor.trans hclock, ?_⟩
    obtain ⟨deadline, hdeadline, hdwell⟩ | hpast := howed
    · obtain hcarried | hreanchored | ⟨-, helapsed⟩ := h.cooldown
      · exact .inl ⟨deadline, hcarried ▸ hdeadline, hdwell⟩
      · refine .inl ⟨_, hreanchored, ?_⟩
        unfold cooldownDeadline
        omega
      · -- the deadline elapsed, so the clock is past the dwell
        right
        unfold cooldownActive at helapsed
        rw [hdeadline] at helapsed
        have hreached : deadline ≤ observation.asOfTs := by simpa using helapsed
        omega
    · right
      omega

/-- A frame that reads before the end of the dwell does not place. -/
theorem DecideStep.dwells {frame : Frame} {anchor : ℤ}
    (h : DecideStep platform config sessionId state frame nextState)
    (hdwelling : Dwelling config anchor state)
    (hbefore : frame.1.asOfTs < anchor + config.bookStateDwellBeforeQuoteMs) :
    ¬ frame.2.Places := by
  intro hplaces
  have hgates := h.gated hplaces
  obtain ⟨asOfTs, hasOfTs, -, ⟨deadline, hdeadline, hdwell⟩ | hpast⟩ := hdwelling
  · have helapsed := hgates.cooldownElapsed deadline hdeadline
    omega
  · obtain ⟨fvReset, hverdict⟩ := hgates.accepted
    obtain ⟨-, hclock, -⟩ := admission_pass_iff.mp hverdict
    unfold clockRegressed at hclock
    rw [hasOfTs] at hclock
    have hforward : asOfTs ≤ frame.1.asOfTs := by simpa using hclock
    omega

/-! ## Runs -/

/-- **The event dwell**: a frame of a run that anchors a cooldown does not place, and no later frame
of the run does that reads before the dwell has passed. -/
theorem runs_dwell {before after : List Frame} {frame : Frame} {last : StrategyState}
    (h : StrategyRun platform config sessionId {} (before ++ frame :: after) last) :
    ∃ state, StrategyRun platform config sessionId {} before state ∧
      (Anchors frame.1 state config → ¬ frame.2.Places ∧
        ∀ later ∈ after,
          later.1.asOfTs < frame.1.asOfTs + config.bookStateDwellBeforeQuoteMs →
            ¬ later.2.Places) := by
  obtain ⟨state, nextState, hbefore, hstep, hafter⟩ := h.step_at
  refine ⟨state, hbefore, fun hanchors => ?_⟩
  obtain ⟨raw, hmoves, hdecision⟩ := hstep.moves
  obtain ⟨hcooldown, hclock, hidle⟩ := hmoves.anchored hanchors
  have hplaces : ¬ frame.2.Places := by
    rw [hdecision, places_stampIdentity]
    intro hplaces
    rw [places_of_funnel hplaces] at hplaces
    obtain ⟨leg, hleg, -⟩ := hplaces
    rw [hidle.1] at hleg
    cases hleg
  have hanchored : Dwelling config frame.1.asOfTs nextState :=
    ⟨frame.1.asOfTs, hclock, le_rfl, .inl ⟨_, hcooldown, le_rfl⟩⟩
  have hseeded : nextState.Seeded := hmoves.seeded (.of_run hbefore)
  have hrun : (last.Seeded ∧ Dwelling config frame.1.asOfTs last) ∧ ∀ later ∈ after,
      later.1.asOfTs < frame.1.asOfTs + config.bookStateDwellBeforeQuoteMs →
        ¬ later.2.Places := by
    refine hafter.invariant (fun frames reached =>
      (reached.Seeded ∧ Dwelling config frame.1.asOfTs reached) ∧ ∀ later ∈ frames,
        later.1.asOfTs < frame.1.asOfTs + config.bookStateDwellBeforeQuoteMs →
          ¬ later.2.Places) ⟨⟨hseeded, hanchored⟩, by simp⟩ ?_
    rintro frames next reached reached' ⟨⟨hreached, hdwelling⟩, hnone⟩ hnext
    obtain ⟨raw', hmoves', -⟩ := DecideStep.moves hnext
    refine ⟨⟨hmoves'.seeded hreached, hmoves'.dwelling hreached hdwelling⟩, fun later hlater => ?_⟩
    obtain hearlier | hlast := List.mem_append.mp hlater
    · exact hnone later hearlier
    · obtain rfl := List.mem_singleton.mp hlast
      exact hnext.dwells hdwelling
  exact ⟨hplaces, hrun.2⟩

/-- A reconnect with a dwell of five seconds: a frame of the same healthy book 4999 ms later quotes
nothing. -/
theorem runs_dwell_reconnect : ∃ frame later : Frame, frame.1 = reconnectFrame 0 1 ∧
    later.1 = reconnectFrame 1 5000 ∧ ¬ frame.2.Places ∧ ¬ later.2.Places := by
  obtain ⟨frames, last, hobservations, hrun⟩ := exists_run flatPlatform (promptConfig true) ""
    [healthyFrame 7 0 (48 / 100) (52 / 100) [], reconnectFrame 0 1, reconnectFrame 1 5000]
  obtain ⟨first, frame, later, rfl⟩ := List.length_eq_three.mp
    (by simpa using congrArg List.length hobservations)
  simp only [List.map_cons, List.map_nil, List.cons.injEq, and_true] at hobservations
  obtain ⟨hfirst, hframe, hlater⟩ := hobservations
  have hcut : StrategyRun flatPlatform (promptConfig true) "" {} ([first] ++ frame :: [later])
      last := hrun
  obtain ⟨state, hbefore, hdwell⟩ := runs_dwell hcut
  have hanchors : Anchors frame.1 state (promptConfig true) := by
    have hfold := decideAll_of_run hbefore
    rw [List.map_singleton, hfirst] at hfold
    have hstate : accept (healthyFrame 7 0 (48 / 100) (52 / 100) []) {} (promptConfig true) true
        false = state := (Prod.ext_iff.mp (Except.ok.inj hfold)).2
    rw [hframe, ← hstate]
    exact .inl (by decide +kernel)
  obtain ⟨hplaces, hnone⟩ := hdwell hanchors
  refine ⟨frame, later, hframe, hlater, hplaces, hnone later (List.mem_singleton_self _) ?_⟩
  rw [hframe, hlater]
  decide

end Veridex.MmStrategy
