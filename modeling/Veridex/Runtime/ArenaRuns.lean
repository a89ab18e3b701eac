import Veridex.Runtime.ArenaComparison

/-!
# The model's call over a comparison (`runtime/arena_comparison.py`)

What a tick does with the one slot is said once (`stepLlm_cases`), and from it what every comparison
keeps, ended or raised: the record of the calls is sound, the decisions of the audit trail are those
of the record in order, and two launches are a cadence apart.

Results: `arena_sound`, `arena_spaced`, `arena_settled`, and `one_model_call` of both.
-/

namespace Veridex.Runtime

open Veridex.Py Veridex.Lib Veridex.Strategies

namespace ArenaComparison

variable {setup : ArenaSetup} {o : Offered} {state : MarketState} {a a' : ArenaComparison}
  {result : Except PyExc Unit} {tape : List MarketState} {projector : ArenaSharedProjector}

/-! ## What the parts of a tick leave alone -/

/-- The deterministic contestant's part of a tick: the model's contestant is left alone, and events
of its own are added. -/
theorem stepDet_frame (setup : ArenaSetup) (o : Offered) (a : ArenaComparison) :
    (a.stepDet setup o).slot = a.slot ∧ (a.stepDet setup o).clock = a.clock ∧
    (a.stepDet setup o).llmLastCpAt = a.llmLastCpAt ∧
    ∃ events, (a.stepDet setup o).events = a.events ++ events ∧
      ∀ event ∈ events, event.contestant = .detDrift := by
  unfold stepDet
  simp only
  split_ifs
  · exact ⟨rfl, rfl, rfl, [], by simp, by simp⟩
  · split
    · exact ⟨rfl, rfl, rfl, [], by simp, by simp⟩
    · refine ⟨rfl, rfl, rfl, [_, _], List.append_assoc .., ?_⟩
      intro event hevent
      rcases List.mem_pair.mp hevent with rfl | rfl
      · rfl
      · rfl

theorem stepDet_projector : (a.stepDet setup o).projector = a.projector := by
  unfold stepDet
  simp only
  split_ifs
  · rfl
  · split
    · rfl
    · rfl

/-- The event of a checkpoint that is offered to the model's contestant. -/
def offeredLlm (setup : ArenaSetup) (o : Offered) (a : ArenaComparison) :
    List ArenaCheckpointEvent :=
  match (a.openLlm setup o).1, o.snapshot with
  | true, some snapshot => [o.event .llmDrift .opportunity snapshot.evidenceHash]
  | _, _ => []

/-- The arena at the model's checkpoint. -/
theorem openLlm_eq : (a.openLlm setup o).2 = { a with
    llmLastSnapshot := o.snapshot
    llmLastCpAt := if (a.openLlm setup o).1 then some (o.ts : ℚ) else a.llmLastCpAt
    events := a.events ++ a.offeredLlm setup o } := by
  unfold offeredLlm openLlm
  cases hcheckpoint : setup.llmPolicy.isCheckpoint o.ts a.llmLastCpAt o.snapshot
      a.llmLastSnapshot with
  | false => simp
  | true =>
    cases hsnapshot : o.snapshot with
    | none => simp
    | some snapshot => simp

theorem offeredLlm_opportunity {event : ArenaCheckpointEvent}
    (h : event ∈ a.offeredLlm setup o) : event.kind = .opportunity := by
  unfold offeredLlm at h
  split at h
  · obtain rfl := List.mem_singleton.mp h
    rfl
  · exact nomatch h

/-! ## What a tick and a service do -/

/-- What the model's part of a tick does after its checkpoint: the slot is served; then a decision
that was served goes out, or a call is launched into the free slot, or nothing more is done but that
a checkpoint may be told as skipped. -/
theorem stepLlm_cases
    (hsound : Slot.Sound setup.llmPolicy.evidenceAgeLimitS (decisionOf setup.lib) a.slot)
    (hstep : a.stepLlm setup o = (result, a')) :
    ∃ outcome served, a.slot.advance.service a.clock = (outcome, served) ∧
      ((∃ call raw evidenceHash, outcome = .completedFresh call raw evidenceHash ∧
          result = .ok () ∧ a' = emitLlmDecision setup o call raw evidenceHash
            { (a.openLlm setup o).2 with slot := served }) ∨
        (∃ snapshot handle, outcome = .idle ∧ (a.openLlm setup o).1 = true ∧
          o.snapshot = some snapshot ∧ result = .ok () ∧ a' = { (a.openLlm setup o).2 with
            slot := served.advance.launched handle snapshot.evidenceHash o.ts a.clock
            events := (a.openLlm setup o).2.events ++
              [o.event .llmDrift .launched snapshot.evidenceHash] }) ∨
        (∃ skipped slot, (∀ event ∈ skipped, event.contestant = .llmDrift ∧
            event.kind = .skippedInflight) ∧ (slot = served ∨ slot = served.advance) ∧
          a' = { (a.openLlm setup o).2 with
            slot := slot
            events := (a.openLlm setup o).2.events ++ skipped })) := by
  generalize hserve : a.slot.advance.service a.clock = served
  obtain ⟨outcome, served⟩ := served
  refine ⟨outcome, served, rfl, ?_⟩
  obtain ⟨-, hleaves, -⟩ := Slot.sound_service (Slot.sound_advance hsound) hserve
  have hopen : (a.openLlm setup o).2.slot = a.slot ∧ (a.openLlm setup o).2.clock = a.clock := by
    rw [openLlm_eq]
    exact ⟨rfl, rfl⟩
  have hservice : (a.openLlm setup o).2.service =
      (outcome, { (a.openLlm setup o).2 with slot := served }) := by
    simp only [service, hopen, hserve]
  unfold stepLlm at hstep
  simp only [hservice] at hstep
  cases outcome with
  | completedFresh call raw evidenceHash =>
    obtain ⟨rfl, rfl⟩ := Prod.mk.inj hstep
    exact .inl ⟨call, raw, evidenceHash, rfl, rfl, rfl⟩
  | inFlight evidenceHash | awaitingConfirmation evidenceHash =>
    right; right
    simp only at hstep
    split_ifs at hstep
    · obtain ⟨rfl, rfl⟩ := Prod.mk.inj hstep
      refine ⟨[_], served, fun event hevent => ?_, .inl rfl, rfl⟩
      obtain rfl := List.mem_singleton.mp hevent
      exact ⟨rfl, rfl⟩
    · obtain ⟨rfl, rfl⟩ := Prod.mk.inj hstep
      exact ⟨[], served, by simp, .inl rfl, by simp⟩
  | completedStale evidenceHash | failed error evidenceHash | confirmedTerminated evidenceHash =>
    obtain ⟨rfl, rfl⟩ := Prod.mk.inj hstep
    exact .inr (.inr ⟨[], served, by simp, .inl rfl, by simp⟩)
  | idle =>
    obtain ⟨hfree, rfl⟩ := hleaves
    right
    simp only at hstep
    split at hstep
    · next snapshot hcheckpoint hsnapshot =>
      cases hmodel : setup.model a.slot.advance.advance.moment
          (buildDriftDecisionPrompt setup.lib snapshot) with
      | error e =>
        right
        simp only [launchLlm, hmodel] at hstep
        obtain ⟨-, rfl⟩ := Prod.mk.inj hstep
        exact ⟨[], a.slot.advance.advance, by simp, .inr rfl, by simp⟩
      | ok handle =>
        left
        have hlaunch : a.slot.advance.advance.launch handle snapshot.evidenceHash o.ts
            (a.openLlm setup o).2.clock = .ok (a.slot.advance.advance.launched handle
              snapshot.evidenceHash o.ts a.clock) := by
          rw [hopen.2]
          exact Slot.launch_eq (s := a.slot.advance.advance) hfree ..
        simp only [launchLlm, hmodel, hlaunch] at hstep
        obtain ⟨rfl, rfl⟩ := Prod.mk.inj hstep
        exact ⟨snapshot, handle, rfl, hcheckpoint, hsnapshot, rfl, rfl⟩
    · obtain ⟨rfl, rfl⟩ := Prod.mk.inj hstep
      exact .inr ⟨[], a.slot.advance, by simp, .inl rfl, by simp⟩

/-! ## The audit trail and the record -/

/-- What a decision of the model's contestant says. -/
def toldDecision (event : ArenaCheckpointEvent) :
    Option (Option SportsActionType × Decoded × Decoded) :=
  if event.contestant = .llmDrift ∧ event.kind = .decision then
    some (event.actionType, event.marketKey, event.side)
  else none

/-- The time of a launch that is told. -/
def toldLaunch (event : ArenaCheckpointEvent) : Option ℚ :=
  if event.contestant = .llmDrift ∧ event.kind = .launched then some event.checkpointTs else none

/-- A decision of the record, as it is told. -/
def emittedDecision : CallEvent RawOutput AgentAction →
    Option (Option SportsActionType × Decoded × Decoded)
  | .emitted _ action =>
    some (some action.type, action.param "market_key", action.param "side")
  | _ => none

/-- The time of a launch of the record. -/
def launchedAt : CallEvent RawOutput AgentAction → Option ℚ
  | .launched _ now _ => some now
  | _ => none

/-- An event that tells neither a decision nor a launch of the model's contestant. -/
def Neutral (event : ArenaCheckpointEvent) : Prop :=
  event.contestant = .detDrift ∨ event.kind = .opportunity ∨ event.kind = .skippedInflight

theorem Neutral.toldDecision {event : ArenaCheckpointEvent} (h : Neutral event) :
    toldDecision event = none := by
  refine if_neg ?_
  rintro ⟨hcontestant, hkind⟩
  simp [Neutral, hcontestant, hkind] at h

theorem Neutral.toldLaunch {event : ArenaCheckpointEvent} (h : Neutral event) :
    toldLaunch event = none := by
  refine if_neg ?_
  rintro ⟨hcontestant, hkind⟩
  simp [Neutral, hcontestant, hkind] at h

/-- The record is sound, and the trail tells its decisions and its launches. -/
structure LlmSound (setup : ArenaSetup) (a : ArenaComparison) : Prop where
  sound : Slot.Sound setup.llmPolicy.evidenceAgeLimitS (decisionOf setup.lib) a.slot
  decisions : a.events.filterMap toldDecision = a.slot.history.filterMap emittedDecision
  launches : a.events.filterMap toldLaunch = a.slot.history.filterMap launchedAt

theorem llmSound_init : LlmSound setup (init setup projector) where
  sound := Slot.sound_init _ _
  decisions := rfl
  launches := rfl

/-- Nothing is told, and nothing but services recorded. -/
theorem LlmSound.quiet (h : LlmSound setup a) (events : List ArenaCheckpointEvent)
    (passive : List (CallEvent RawOutput AgentAction))
    (hsound : Slot.Sound setup.llmPolicy.evidenceAgeLimitS (decisionOf setup.lib) a'.slot)
    (hhistory : a'.slot.history = a.slot.history ++ passive)
    (hpassive : ∀ event ∈ passive, event.Passive) (hevents : a'.events = a.events ++ events)
    (hneutral : ∀ event ∈ events, Neutral event) : LlmSound setup a' where
  sound := hsound
  decisions := by
    have htold : events.filterMap toldDecision = [] :=
      List.filterMap_eq_nil_iff.mpr fun event hevent => (hneutral event hevent).toldDecision
    have hnone : passive.filterMap emittedDecision = [] := by
      refine List.filterMap_eq_nil_iff.mpr fun event hevent => ?_
      cases event with
      | emitted _ _ => exact (hpassive _ hevent).elim
      | launched _ _ _ | observed _ _ _ | cancelled _ => rfl
    rw [hevents, hhistory, List.filterMap_append, List.filterMap_append, htold, hnone, h.decisions]
  launches := by
    have htold : events.filterMap toldLaunch = [] :=
      List.filterMap_eq_nil_iff.mpr fun event hevent => (hneutral event hevent).toldLaunch
    have hnone : passive.filterMap launchedAt = [] := by
      refine List.filterMap_eq_nil_iff.mpr fun event hevent => ?_
      cases event with
      | launched _ _ _ => exact (hpassive _ hevent).elim
      | emitted _ _ | observed _ _ _ | cancelled _ => rfl
    rw [hevents, hhistory, List.filterMap_append, List.filterMap_append, htold, hnone, h.launches]

/-- The slot is served, and nothing is told but neutral events. -/
theorem LlmSound.served {reading : ℚ} {outcome : ServiceOutcome RawOutput}
    {served : Slot RawOutput AgentAction} (h : LlmSound setup a)
    (events : List ArenaCheckpointEvent) (hserve : a.slot.advance.service reading = (outcome, served))
    (hslot : a'.slot = served ∨ a'.slot = served.advance)
    (hevents : a'.events = a.events ++ events) (hneutral : ∀ event ∈ events, Neutral event) :
    LlmSound setup a' := by
  obtain ⟨hserved, -⟩ := Slot.sound_service (Slot.sound_advance h.sound) hserve
  obtain ⟨passive, hhistory, hpassive⟩ := Slot.service_history hserve
  rcases hslot with hslot | hslot
  · exact h.quiet events passive (hslot ▸ hserved) (by rw [hslot]; exact hhistory) hpassive hevents
      hneutral
  · exact h.quiet events passive (hslot ▸ Slot.sound_advance hserved)
      (by rw [hslot]; exact hhistory) hpassive hevents hneutral

/-- **A decision that was just served** is told. -/
theorem LlmSound.decided {call : ℕ} {raw : RawOutput} (h : LlmSound setup a)
    (hfree : a.slot.guard.call = none)
    (hserved : Slot.Served setup.llmPolicy.evidenceAgeLimitS call raw a.slot)
    (evidenceHash : String) : LlmSound setup (a.emitLlmDecision setup o call raw evidenceHash) where
  sound := Slot.sound_emit h.sound hfree hserved
  decisions := by
    simp only [emitLlmDecision, Slot.emit, List.filterMap_append, h.decisions]
    rfl
  launches := by
    simp only [emitLlmDecision, Slot.emit, List.filterMap_append, h.launches]
    rfl

/-- **A launch into the free slot** is told. -/
theorem LlmSound.launched (h : LlmSound setup a) (hfree : a.slot.guard.call = none)
    (handle : CallHandle RawOutput) (evidenceHash : String) (reading : ℚ) :
    LlmSound setup { a with
      slot := a.slot.launched handle evidenceHash o.ts reading
      events := a.events ++ [o.event .llmDrift .launched evidenceHash] } where
  sound := Slot.sound_launched h.sound hfree handle evidenceHash _ _
  decisions := by
    simp only [Slot.launched, List.filterMap_append, h.decisions]
    rfl
  launches := by
    simp only [Slot.launched, List.filterMap_append, h.launches]
    rfl

theorem llmSound_stepLlm (h : LlmSound setup a) (hstep : a.stepLlm setup o = (result, a')) :
    LlmSound setup a' := by
  obtain ⟨outcome, served, hserve, hcases⟩ := stepLlm_cases h.sound hstep
  obtain ⟨-, hleaves, -⟩ := Slot.sound_service (Slot.sound_advance h.sound) hserve
  have hoffered : ∀ event ∈ a.offeredLlm setup o, Neutral event :=
    fun event hevent => .inr (.inl (offeredLlm_opportunity hevent))
  rcases hcases with ⟨call, raw, evidenceHash, rfl, -, rfl⟩ |
    ⟨snapshot, handle, rfl, -, -, -, rfl⟩ | ⟨skipped, slot, hskipped, hslot, rfl⟩
  · have hopened : LlmSound setup { (a.openLlm setup o).2 with slot := served } :=
      h.served _ hserve (.inl rfl) (by rw [openLlm_eq]) hoffered
    exact hopened.decided hleaves.1 hleaves.2.1 evidenceHash
  · have hopened : LlmSound setup { (a.openLlm setup o).2 with slot := served.advance } :=
      h.served _ hserve (.inr rfl) (by rw [openLlm_eq]) hoffered
    obtain ⟨hfree, rfl⟩ := hleaves
    exact hopened.launched (by exact hfree) handle snapshot.evidenceHash a.clock
  · refine h.served (a.offeredLlm setup o ++ skipped) hserve hslot ?_ ?_
    · rw [openLlm_eq]
      exact List.append_assoc ..
    · intro event hevent
      rcases List.mem_append.mp hevent with hevent | hevent
      · exact hoffered event hevent
      · exact .inr (.inr (hskipped event hevent).2)

theorem llmSound_stepDet (h : LlmSound setup a) : LlmSound setup
    ({ a.record state with projector := projector }.stepDet setup o) := by
  have hprojected : LlmSound setup { a.record state with projector := projector } :=
    ⟨h.sound, h.decisions, h.launches⟩
  obtain ⟨hslot, -, -, events, hevents, hdet⟩ := stepDet_frame setup o
    { a.record state with projector := projector }
  exact hprojected.quiet events [] (by rw [hslot]; exact hprojected.sound)
    (by rw [hslot, List.append_nil]) (by simp) hevents fun event hevent => .inl (hdet event hevent)

/-- **A tick keeps the record sound and told.** -/
theorem llmSound_step (h : LlmSound setup a) (hstep : a.step setup state = (result, a')) :
    LlmSound setup a' := by
  have hrecord : LlmSound setup (a.record state) := ⟨h.sound, h.decisions, h.launches⟩
  unfold step at hstep
  cases hproject : (a.record state).projector.project setup.lib state with
  | error e =>
    simp only [hproject] at hstep
    obtain ⟨-, rfl⟩ := Prod.mk.inj hstep
    exact hrecord
  | ok projected =>
    obtain ⟨proj, projector'⟩ := projected
    simp only [hproject] at hstep
    exact llmSound_stepLlm (llmSound_stepDet h) hstep

/-! ## Runs -/

/-- **What every tick keeps**, of the ticks that remain and the arena, the ticks of a tape keep. -/
theorem runTicks_invariant (Inv : List MarketState → ArenaComparison → Prop)
    (keep : ∀ state rest a result a', Inv (state :: rest) a → a.step setup state = (result, a') →
      Inv rest a') : ∀ {tape : List MarketState} {a a' : ArenaComparison}, Inv tape a →
    runTicks setup tape a = (result, a') → ∃ rest, Inv rest a' := by
  intro tape
  induction tape with
  | nil =>
    intro a a' hinv hrun
    obtain ⟨-, rfl⟩ := Prod.mk.inj hrun
    exact ⟨[], hinv⟩
  | cons state tape ih =>
    intro a a' hinv hrun
    generalize hstep : a.step setup state = stepped
    obtain ⟨result', b⟩ := stepped
    simp only [runTicks, hstep] at hrun
    have hb := keep state tape a result' b hinv hstep
    cases result' with
    | error e =>
      obtain ⟨-, rfl⟩ := Prod.mk.inj hrun
      exact ⟨tape, hb⟩
    | ok _ => exact ih hb hrun

/-- What every tick that returns keeps, a tape of ticks that return keeps. -/
theorem runTicks_returned (Inv : ArenaComparison → Prop)
    (keep : ∀ state a a', Inv a → a.step setup state = (.ok (), a') → Inv a') :
    ∀ {tape : List MarketState} {a a' : ArenaComparison}, Inv a →
      runTicks setup tape a = (.ok (), a') → Inv a' := by
  intro tape
  induction tape with
  | nil =>
    intro a a' hinv hrun
    obtain ⟨-, rfl⟩ := Prod.mk.inj hrun
    exact hinv
  | cons state tape ih =>
    intro a a' hinv hrun
    generalize hstep : a.step setup state = stepped
    obtain ⟨result', b⟩ := stepped
    simp only [runTicks, hstep] at hrun
    cases result' with
    | error e => exact nomatch (Prod.mk.inj hrun).1
    | ok _ => exact ih (keep state a b hinv hstep) hrun

section Drain

/-- What every service of the drain keeps: one that serves no decision, and one that does with the
decision after it. -/
structure Drains (setup : ArenaSetup) (Inv : ArenaComparison → Prop) : Prop where
  clock : ∀ a reading, Inv a → Inv { a with clock := reading }
  quiet : ∀ a outcome served, Inv a → a.slot.advance.service a.clock = (outcome, served) →
    Inv { a with slot := served }
  decided : ∀ a o call raw evidenceHash served, Inv a →
    a.slot.advance.service a.clock = (.completedFresh call raw evidenceHash, served) →
    Inv (emitLlmDecision setup o call raw evidenceHash { a with slot := served })

variable {Inv : ArenaComparison → Prop}

theorem Drains.phase1 (hkeep : Drains setup Inv) : ∀ yields a, Inv a →
    Inv (drainPhase1 setup o yields a).2 := by
  intro yields
  induction yields with
  | zero => exact fun a h => h
  | succ yields ih =>
    intro a h
    generalize hserve : a.slot.advance.service a.clock = served
    obtain ⟨outcome, served⟩ := served
    have hquiet := hkeep.quiet a outcome served h hserve
    simp only [drainPhase1, service, hserve]
    split
    · next call raw evidenceHash => exact hkeep.decided a o call raw evidenceHash served h hserve
    · exact hquiet
    · exact hquiet
    · exact hquiet
    · split_ifs
      · exact hquiet
      · exact ih _ hquiet

theorem Drains.phase2 (hkeep : Drains setup Inv) : ∀ yields a, Inv a →
    Inv (drainPhase2 yields a).2 := by
  intro yields
  induction yields with
  | zero => exact fun a h => h
  | succ yields ih =>
    intro a h
    generalize hserve : a.slot.advance.service a.clock = served
    obtain ⟨outcome, served⟩ := served
    have hquiet := hkeep.quiet a outcome served h hserve
    simp only [drainPhase2, service, hserve]
    split
    · exact hquiet
    · exact hquiet
    · exact hquiet
    · split_ifs
      · exact hquiet
      · exact ih _ hquiet

/-- The ends of a drain: the slot was free; or a phase has ended it; or the slot is free after both,
or it is not and the drain raises. -/
theorem drain_cases (hdrain : a.drain setup = (result, a')) :
    (a.slot.guard.call = none ∧ a' = a) ∨
    (result = .ok () ∧ drainPhase1 setup a.drainTick maxYields a = (true, a')) ∨
    ∃ b reading done, drainPhase1 setup a.drainTick maxYields a = (false, b) ∧
      drainPhase2 maxYields { b with clock := reading } = (done, a') ∧
      (done = true ∨ a'.slot.guard.call = none ∨ ∃ e, result = .error e) := by
  unfold drain at hdrain
  split_ifs at hdrain with hbusy
  · obtain ⟨-, rfl⟩ := Prod.mk.inj hdrain
    exact .inl ⟨by simpa [InflightGuard.busy] using hbusy, rfl⟩
  · simp only at hdrain
    right
    generalize drainPhase1 setup a.drainTick maxYields a = first at hdrain ⊢
    obtain ⟨done, b⟩ := first
    cases done with
    | true =>
      obtain ⟨rfl, rfl⟩ := Prod.mk.inj hdrain
      exact .inl ⟨rfl, rfl⟩
    | false =>
      simp only at hdrain
      refine .inr ⟨b, a.drainTick.ts + setup.llmPolicy.evidenceAgeLimitS + 1, ?_⟩
      generalize drainPhase2 maxYields _ = second at hdrain ⊢
      obtain ⟨done, c⟩ := second
      cases done with
      | true =>
        obtain ⟨-, rfl⟩ := Prod.mk.inj hdrain
        exact ⟨true, rfl, rfl, .inl rfl⟩
      | false =>
        simp only at hdrain
        split_ifs at hdrain with hstill
        · obtain ⟨rfl, rfl⟩ := Prod.mk.inj hdrain
          exact ⟨false, rfl, rfl, .inr (.inr ⟨_, rfl⟩)⟩
        · obtain ⟨-, rfl⟩ := Prod.mk.inj hdrain
          exact ⟨false, rfl, rfl, .inr (.inl (by simpa [InflightGuard.busy] using hstill))⟩

/-- **What every service of the drain keeps**, the drain keeps. -/
theorem Drains.drain (hkeep : Drains setup Inv) (h : Inv a)
    (hdrain : a.drain setup = (result, a')) : Inv a' := by
  rcases drain_cases hdrain with ⟨-, rfl⟩ | ⟨-, hfirst⟩ | ⟨b, reading, done, hfirst, hsecond, -⟩
  · exact h
  · have := hkeep.phase1 (o := a.drainTick) maxYields a h
    rwa [hfirst] at this
  · have hb := hkeep.phase1 (o := a.drainTick) maxYields a h
    rw [hfirst] at hb
    have := hkeep.phase2 maxYields _ (hkeep.clock b reading hb)
    rwa [hsecond] at this

end Drain

/-- **Services keep the record sound and told.** -/
theorem llmSound_drains : Drains setup (LlmSound setup) where
  clock _ _ h := ⟨h.sound, h.decisions, h.launches⟩
  quiet _ _ _ h hserve := h.served [] hserve (.inl rfl) (by simp) (by simp)
  decided a o call raw evidenceHash served h hserve := by
    obtain ⟨-, hleaves, -⟩ := Slot.sound_service (Slot.sound_advance h.sound) hserve
    have hserved : LlmSound setup { a with slot := served } :=
      h.served [] hserve (.inl rfl) (by simp) (by simp)
    exact hserved.decided hleaves.1 hleaves.2.1 evidenceHash

/-- The ticks of a tape keep the record sound and told. -/
theorem llmSound_runTicks (hrun : runTicks setup tape (init setup projector) = (result, a)) :
    LlmSound setup a := by
  obtain ⟨-, ha⟩ := runTicks_invariant (fun _ a => LlmSound setup a)
    (fun _ _ _ _ _ h hstep => llmSound_step h hstep) llmSound_init hrun
  exact ha

/-- A comparison ends in its ticks, or in the drain after them. -/
theorem run_cases (hrun : runArenaComparison setup projector tape = (result, a)) :
    runTicks setup tape (init setup projector) = (result, a) ∧ result ≠ .ok () ∨
    ∃ b, runTicks setup tape (init setup projector) = (.ok (), b) ∧ b.drain setup = (result, a) := by
  unfold runArenaComparison at hrun
  split at hrun
  · next e b hb =>
    obtain ⟨rfl, rfl⟩ := Prod.mk.inj hrun
    exact .inl ⟨hb, by simp⟩
  · next b hb => exact .inr ⟨b, hb, hrun⟩

/-- **Every comparison**, ended or raised, leaves the record sound and told. -/
theorem arena_sound (hrun : runArenaComparison setup projector tape = (result, a)) :
    LlmSound setup a := by
  rcases run_cases hrun with ⟨hticks, -⟩ | ⟨b, hticks, hdrain⟩
  · exact llmSound_runTicks hticks
  · exact llmSound_drains.drain (llmSound_runTicks hticks) hdrain

/-! ## Launches apart -/

theorem openLlm_opens : (a.openLlm setup o).1 =
    setup.llmPolicy.isCheckpoint o.ts a.llmLastCpAt o.snapshot a.llmLastSnapshot := by
  unfold openLlm
  cases setup.llmPolicy.isCheckpoint o.ts a.llmLastCpAt o.snapshot a.llmLastSnapshot with
  | false => simp
  | true => cases o.snapshot <;> simp

theorem openLlm_lastCpAt : (a.openLlm setup o).2.llmLastCpAt =
    if (a.openLlm setup o).1 then some (o.ts : ℚ) else a.llmLastCpAt := by
  rw [openLlm_eq]

/-- The launches so far and the checkpoint after them, before the ticks that remain. -/
structure Paced (setup : ArenaSetup) (rest : List MarketState) (a : ArenaComparison) : Prop where
  told : LlmSound setup a
  spaced : EachAfter (Slot.Spaced setup.llmPolicy.cadenceS) a.slot.history
  last : ∀ call now moment, .launched call now moment ∈ a.slot.history →
    ∃ last, a.llmLastCpAt = some last ∧ now ≤ last
  ordered : rest.Pairwise fun before after => before.ts ≤ after.ts
  past : ∀ state ∈ rest, ∀ last, a.llmLastCpAt = some last → last ≤ state.ts

/-- The launches, and the checkpoint after them, once the model's contestant has been ticked. -/
theorem paced_stepLlm (hthreshold : setup.llmPolicy.featureDeltaThreshold = none)
    (h : LlmSound setup a) (hspaced : EachAfter (Slot.Spaced setup.llmPolicy.cadenceS) a.slot.history)
    (hlast : ∀ call now moment, .launched call now moment ∈ a.slot.history →
      ∃ last, a.llmLastCpAt = some last ∧ now ≤ last)
    (hstep : a.stepLlm setup o = (result, a')) :
    EachAfter (Slot.Spaced setup.llmPolicy.cadenceS) a'.slot.history ∧
    (∀ call now moment, .launched call now moment ∈ a'.slot.history →
      ∃ last, a'.llmLastCpAt = some last ∧ now ≤ last) ∧
    (a'.llmLastCpAt = a.llmLastCpAt ∨ a'.llmLastCpAt = some (o.ts : ℚ)) := by
  obtain ⟨outcome, served, hserve, hcases⟩ := stepLlm_cases h.sound hstep
  obtain ⟨-, hleaves, -⟩ := Slot.sound_service (Slot.sound_advance h.sound) hserve
  have hadvanced : EachAfter (Slot.Spaced setup.llmPolicy.cadenceS) a.slot.advance.history := hspaced
  obtain ⟨hquiet, hlaunched⟩ := Slot.service_spaced hadvanced hserve
  -- where a checkpoint opens, it is a cadence after every launch
  have hopens : (a.openLlm setup o).1 = true → ∀ call now moment,
      CallEvent.launched call now moment ∈ a.slot.history →
      setup.llmPolicy.cadenceS ≤ o.ts - now := by
    intro hopen call now moment hmem
    obtain ⟨last, hcheckpoint, hle⟩ := hlast call now moment hmem
    rw [openLlm_opens, hcheckpoint] at hopen
    have := CheckpointPolicy.le_of_isCheckpoint hthreshold hopen
    linarith
  have hkept : ∀ call now moment, CallEvent.launched call now moment ∈ a.slot.history →
      ∃ last, (a.openLlm setup o).2.llmLastCpAt = some last ∧ now ≤ last := by
    intro call now moment hmem
    rw [openLlm_lastCpAt]
    cases hopen : (a.openLlm setup o).1 with
    | true =>
      have hcadence := hopens hopen call now moment hmem
      have hpositive := setup.llmPolicy.cadence_pos
      exact ⟨o.ts, rfl, by linarith⟩
    | false => simpa using hlast call now moment hmem
  have hcheckpoint : (a.openLlm setup o).2.llmLastCpAt = a.llmLastCpAt ∨
      (a.openLlm setup o).2.llmLastCpAt = some (o.ts : ℚ) := by
    rw [openLlm_lastCpAt]
    cases (a.openLlm setup o).1 with
    | true => exact .inr rfl
    | false => exact .inl rfl
  rcases hcases with ⟨call, raw, evidenceHash, -, -, rfl⟩ |
    ⟨snapshot, handle, rfl, hopen, -, -, rfl⟩ | ⟨skipped, slot, -, hslot, rfl⟩
  · refine ⟨eachAfter_append.mpr ⟨hquiet, eachAfter_singleton.mpr trivial⟩, ?_, hcheckpoint⟩
    intro call' now moment hmem
    exact hkept call' now moment
      (hlaunched _ _ _ (by simpa [emitLlmDecision, Slot.emit] using hmem))
  · obtain ⟨-, rfl⟩ := hleaves
    refine ⟨eachAfter_append.mpr ⟨hquiet, eachAfter_singleton.mpr ?_⟩, ?_, hcheckpoint⟩
    · intro call now moment hmem
      exact hopens hopen call now moment (by simpa using hmem)
    · intro call now moment hmem
      rcases List.mem_append.mp hmem with hmem | hmem
      · exact hkept call now moment hmem
      · obtain ⟨-, rfl, -⟩ := CallEvent.launched.inj (List.mem_singleton.mp hmem)
        exact ⟨o.ts, openLlm_lastCpAt.trans (if_pos hopen), le_refl _⟩
  · refine ⟨?_, ?_, hcheckpoint⟩
    · rcases hslot with rfl | rfl
      · exact hquiet
      · exact hquiet
    · intro call now moment hmem
      refine hkept call now moment (hlaunched call now moment ?_)
      rcases hslot with rfl | rfl
      · exact hmem
      · exact hmem

/-- **A tick keeps launches apart**, by the policy's cadence. -/
theorem paced_step (hthreshold : setup.llmPolicy.featureDeltaThreshold = none)
    {rest : List MarketState} (h : Paced setup (state :: rest) a)
    (hstep : a.step setup state = (result, a')) : Paced setup rest a' := by
  have htold := llmSound_step h.told hstep
  obtain ⟨hfirst, hordered⟩ := List.pairwise_cons.mp h.ordered
  have hpast : ∀ later ∈ rest, ∀ last, a.llmLastCpAt = some last → last ≤ later.ts :=
    fun later hlater => h.past later (List.mem_cons_of_mem _ hlater)
  unfold step at hstep
  cases hproject : (a.record state).projector.project setup.lib state with
  | error e =>
    simp only [hproject] at hstep
    obtain ⟨-, rfl⟩ := Prod.mk.inj hstep
    exact ⟨htold, h.spaced, h.last, hordered, hpast⟩
  | ok projected =>
    obtain ⟨proj, projector'⟩ := projected
    simp only [hproject] at hstep
    generalize ho : (⟨state.ts, state.fixtureId, (a.record state).arenaTickSeq, proj⟩ : Offered) = o
      at hstep
    have hts : o.ts = state.ts := by rw [← ho]
    obtain ⟨hslot, -, hlastCp, -⟩ := stepDet_frame setup o
      { a.record state with projector := projector' }
    obtain ⟨hspaced, hlast, hcheckpoint⟩ := paced_stepLlm hthreshold (llmSound_stepDet h.told)
      (by rw [hslot]; exact h.spaced) (by rw [hslot, hlastCp]; exact h.last) hstep
    refine ⟨htold, hspaced, hlast, hordered, ?_⟩
    intro later hlater last hcp
    rcases hcheckpoint with heq | heq
    · rw [heq, hlastCp] at hcp
      exact hpast later hlater last hcp
    · obtain rfl := Option.some.inj (heq.symm.trans hcp)
      rw [hts]
      exact_mod_cast hfirst later hlater

/-- Services keep launches apart. -/
theorem spaced_drains : Drains setup fun a => LlmSound setup a ∧
    EachAfter (Slot.Spaced setup.llmPolicy.cadenceS) a.slot.history where
  clock _ _ h := ⟨llmSound_drains.clock _ _ h.1, h.2⟩
  quiet a outcome served h hserve := by
    have hadvanced : EachAfter (Slot.Spaced setup.llmPolicy.cadenceS) a.slot.advance.history := h.2
    exact ⟨llmSound_drains.quiet _ _ _ h.1 hserve, (Slot.service_spaced hadvanced hserve).1⟩
  decided a o call raw evidenceHash served h hserve := by
    have hadvanced : EachAfter (Slot.Spaced setup.llmPolicy.cadenceS) a.slot.advance.history := h.2
    exact ⟨llmSound_drains.decided _ _ _ _ _ _ h.1 hserve, eachAfter_append.mpr
      ⟨(Slot.service_spaced hadvanced hserve).1, eachAfter_singleton.mpr trivial⟩⟩

/-- **After every comparison** over a tape whose clock does not go back, two launches are a cadence
apart. -/
theorem arena_spaced (hthreshold : setup.llmPolicy.featureDeltaThreshold = none)
    (htape : tape.Pairwise fun before after => before.ts ≤ after.ts)
    (hrun : runArenaComparison setup projector tape = (result, a)) :
    EachAfter (Slot.Spaced setup.llmPolicy.cadenceS) a.slot.history := by
  have hpaced : ∀ {result b}, runTicks setup tape (init setup projector) = (result, b) →
      LlmSound setup b ∧ EachAfter (Slot.Spaced setup.llmPolicy.cadenceS) b.slot.history := by
    intro result b hticks
    obtain ⟨rest, hb⟩ := runTicks_invariant (Paced setup)
      (fun _ _ _ _ _ h hstep => paced_step hthreshold h hstep)
      ⟨llmSound_init, eachAfter_nil, by simp [init], htape, by simp [init]⟩ hticks
    exact ⟨hb.told, hb.spaced⟩
  rcases run_cases hrun with ⟨hticks, -⟩ | ⟨b, hticks, hdrain⟩
  · exact (hpaced hticks).2
  · exact (spaced_drains.drain (hpaced hticks) hdrain).2

/-! ## The end of the tape -/

theorem free_of_not_busy {g : InflightGuard RawOutput} (h : (!g.busy) = true) : g.call = none := by
  simpa [InflightGuard.busy] using h

/-- Phase 1 ends when no call is left. -/
theorem drainPhase1_done : ∀ {yields : ℕ} {a a' : ArenaComparison}, LlmSound setup a →
    drainPhase1 setup o yields a = (true, a') → a'.slot.guard.call = none := by
  intro yields
  induction yields with
  | zero => exact fun _ h => nomatch h
  | succ yields ih =>
    intro a a' h hdone
    generalize hserve : a.slot.advance.service a.clock = served
    obtain ⟨outcome, served⟩ := served
    obtain ⟨-, hleaves, -⟩ := Slot.sound_service (Slot.sound_advance h.sound) hserve
    have hnext : LlmSound setup { a with slot := served } :=
      h.served [] hserve (.inl rfl) (by simp) (by simp)
    simp only [drainPhase1, service, hserve] at hdone
    split at hdone
    iterate 4
      · obtain ⟨-, rfl⟩ := Prod.mk.inj hdone
        exact hleaves.1
    · split_ifs at hdone with hbusy
      · obtain ⟨-, rfl⟩ := Prod.mk.inj hdone
        exact free_of_not_busy hbusy
      · exact ih hnext hdone

/-- Phase 2 ends when no call is left, or a decision was served past the limit. -/
theorem drainPhase2_done : ∀ {yields : ℕ} {a a' : ArenaComparison}, LlmSound setup a →
    drainPhase2 yields a = (true, a') → a'.slot.guard.call = none := by
  intro yields
  induction yields with
  | zero => exact fun _ h => nomatch h
  | succ yields ih =>
    intro a a' h hdone
    generalize hserve : a.slot.advance.service a.clock = served
    obtain ⟨outcome, served⟩ := served
    obtain ⟨-, hleaves, -⟩ := Slot.sound_service (Slot.sound_advance h.sound) hserve
    have hnext : LlmSound setup { a with slot := served } :=
      h.served [] hserve (.inl rfl) (by simp) (by simp)
    simp only [drainPhase2, service, hserve] at hdone
    split at hdone
    iterate 3
      · obtain ⟨-, rfl⟩ := Prod.mk.inj hdone
        exact hleaves.1
    · split_ifs at hdone with hbusy
      · obtain ⟨-, rfl⟩ := Prod.mk.inj hdone
        exact free_of_not_busy hbusy
      · exact ih hnext hdone

/-- **A comparison that returns** leaves the slot free. -/
theorem arena_settled (hrun : runArenaComparison setup projector tape = (.ok (), a)) :
    a.slot.guard.call = none := by
  rcases run_cases hrun with ⟨-, hraised⟩ | ⟨b, hticks, hdrain⟩
  · exact absurd rfl hraised
  · have hb := llmSound_runTicks hticks
    rcases drain_cases hdrain with ⟨hfree, rfl⟩ | ⟨-, hfirst⟩ |
      ⟨c, reading, done, hfirst, hsecond, hend⟩
    · exact hfree
    · exact drainPhase1_done hb hfirst
    · have hc := llmSound_drains.phase1 (o := b.drainTick) maxYields b hb
      rw [hfirst] at hc
      rcases hend with rfl | hfree | ⟨e, he⟩
      · exact drainPhase2_done (llmSound_drains.clock _ reading hc) hsecond
      · exact hfree
      · exact nomatch he

end ArenaComparison

/-! ## One call in flight -/

/-- **One model call in flight**, for the runner and for the arena: of every run, what is said of
every call that was launched in it (`Slot.OneInFlight`); the runner returns something other than
`WAIT` only as the decision it just emitted, and the arena tells the decisions that were emitted; what
does not validate is `WAIT`; without a threshold, on a clock that does not go back, two launches are a
cadence apart; and a comparison that returns leaves the slot free. -/
theorem one_model_call {lib : FloatLibrary} {policy : CheckpointPolicy} {model : ModelLauncher}
    {clock : ℕ → ℚ} {ticks : List RunnerTick} {r : LLMDriftCheckpointRunner} {setup : ArenaSetup}
    {projector : ArenaSharedProjector} {tape : List MarketState} {result : Except PyExc Unit}
    {a : ArenaComparison}
    (hrunner : Run (RunnerStep lib policy model clock) (LLMDriftCheckpointRunner.init policy) ticks r)
    (harena : runArenaComparison setup projector tape = (result, a)) :
    (Slot.OneInFlight policy.evidenceAgeLimitS (decisionOf lib) r.slot ∧
      (∀ snapshot action r', step lib policy model clock snapshot r = (.ok action, r') →
        action ≠ wait → ∃ pre call, r'.slot.history = pre ++ [.emitted call action]) ∧
      (policy.featureDeltaThreshold = none → Monotone clock →
        EachAfter (Slot.Spaced policy.cadenceS) r.slot.history)) ∧
    (Slot.OneInFlight setup.llmPolicy.evidenceAgeLimitS (decisionOf setup.lib) a.slot ∧
      a.events.filterMap ArenaComparison.toldDecision =
        a.slot.history.filterMap ArenaComparison.emittedDecision ∧
      (setup.llmPolicy.featureDeltaThreshold = none →
        (tape.Pairwise fun before after => before.ts ≤ after.ts) →
        EachAfter (Slot.Spaced setup.llmPolicy.cadenceS) a.slot.history) ∧
      (result = .ok () → a.slot.guard.call = none)) ∧
    ∀ lib raw e, revalidateAction lib raw = .error e → decisionOf lib raw = wait := by
  have hsound := runner_sound hrunner
  have htold := ArenaComparison.arena_sound harena
  refine ⟨⟨hsound.oneInFlight, ?_, fun hthreshold hclock => runner_spaced hthreshold hclock hrunner⟩,
    ⟨htold.sound.oneInFlight, htold.decisions, ?_, ?_⟩, ?_⟩
  · exact fun snapshot action r' hstep haction => step_returns hsound hstep haction
  · exact fun hthreshold htape => ArenaComparison.arena_spaced hthreshold htape harena
  · rintro rfl
    exact ArenaComparison.arena_settled harena
  · intro lib raw e hraw
    rw [decisionOf, hraw]

/-- A library that leaves numbers and texts as they are. -/
def plainLibrary : FloatLibrary := ⟨id, id, ratioFormat, String.ofList⟩

/-- A launcher whose calls are done at once, and answer `raw`. -/
def answering (raw : RawOutput) : ModelLauncher := fun _ _ => .ok (.done (.returned raw))

/-- The default policy. -/
def defaultPolicy : CheckpointPolicy := {}

/-- A step under the default policy, a second for every moment, of a model that answers nothing. -/
def exampleStep : Option DriftFeatureSnapshot → LLMDriftCheckpointRunner →
    Except PyExc AgentAction × LLMDriftCheckpointRunner :=
  step plainLibrary defaultPolicy (answering .other) fun n => n

/-- A snapshot of one observation. -/
def firstSnapshot : DriftFeatureSnapshot :=
  ⟨.fin 0, .fin 0, .fin 0, .fin 0, .fin 0, 1, 0, true, "e"⟩

/-- The runner after a tick with evidence and one without. -/
def answeredRunner : LLMDriftCheckpointRunner :=
  (exampleStep none (exampleStep (some firstSnapshot) (.init defaultPolicy)).2).2

/-- A call is launched at the first of two ticks and its malformed answer is `WAIT` at the second;
beside it an arena whose tape is empty. -/
theorem one_model_call_answered :
    answeredRunner.slot.history = [.launched 0 1 3, .observed 0 (some (.returned .other)) 2,
      .emitted 0 wait] ∧
    Slot.OneInFlight 30 (decisionOf plainLibrary) answeredRunner.slot := by
  have hticks : (exampleStep none (exampleStep (some firstSnapshot) (.init defaultPolicy)).2).1 =
      .ok wait ∧ answeredRunner.slot.history = [.launched 0 1 3,
        .observed 0 (some (.returned .other)) 2, .emitted 0 wait] := by
    constructor <;> norm_num [answeredRunner, exampleStep, step, answering, CallHandle.done,
      CheckpointPolicy.isCheckpoint, Slot.service, Slot.launch, Slot.emit, Slot.advance,
      InflightGuard.launch, InflightGuard.busy, InflightGuard.serviceCall, defaultPolicy,
      LLMDriftCheckpointRunner.init, bind, Except.bind, pure, Except.pure, decisionOf,
      revalidateAction]
  have hfirst : RunnerStep plainLibrary defaultPolicy (answering .other) (fun n => n)
      (.init defaultPolicy) (some firstSnapshot, .ok wait)
      (exampleStep (some firstSnapshot) (.init defaultPolicy)).2 := rfl
  have hsecond : RunnerStep plainLibrary defaultPolicy (answering .other) (fun n => n)
      (exampleStep (some firstSnapshot) (.init defaultPolicy)).2 (none, .ok wait)
      answeredRunner := Prod.ext hticks.1 rfl
  have harena : runArenaComparison ⟨plainLibrary, answering .other, defaultPolicy, defaultPolicy, {}⟩
      {} [] = (.ok (), .init ⟨plainLibrary, answering .other, defaultPolicy, defaultPolicy, {}⟩ {}) :=
    rfl
  exact ⟨hticks.2, (one_model_call ((Run.single hfirst).snoc hsecond) harena).1.1⟩

end Veridex.Runtime
