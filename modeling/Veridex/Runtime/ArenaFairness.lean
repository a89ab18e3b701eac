import Veridex.Runtime.ArenaReport

/-!
# A fair comparison (`runtime/arena_comparison.py`)

Noninterference: the arena as far as the model has no say in it (`blind`) makes steps of its own
(`offer`), which every tick takes whatever its model does (`step_offers`); so two comparisons of one
tape under two models end alike there (`blind_eq`). Under one policy for both contestants the two
checkpoint grids stay equal (`Twin`), and no contestant acts more often than it was offered
(`det_balanced`, `llm_balanced`).

Results: `fair_iff`, `listedMarket_unfair`.
-/

namespace Veridex.Runtime

open Veridex.Py Veridex.Lib Veridex.Strategies Veridex.Law

namespace ArenaComparison

variable {setup : ArenaSetup} {o : Offered} {state : MarketState} {a a' b : ArenaComparison}
  {tape : List MarketState} {projector : ArenaSharedProjector} {m₁ m₂ : ModelLauncher}
  {format : Json.FloatFormat PyFloat} {result : Except PyExc Unit}

/-! ## What no model has a say in -/

/-- An event that does not depend on a model. -/
def shared (e : ArenaCheckpointEvent) : Bool := e.contestant = .detDrift || e.kind = .opportunity

/-- The arena as far as no model has a say in it. -/
def blind (a : ArenaComparison) : ArenaComparison :=
  { a with clock := 0, slot := ⟨⟨0, none⟩, [], [], 0⟩, events := a.events.filter shared }

/-- What a tick offers: it is recorded, projected, decided by the deterministic contestant, and
opened to the model's. -/
def offer (setup : ArenaSetup) (state : MarketState) (a : ArenaComparison) :
    Except PyExc ArenaComparison :=
  match (a.record state).projector.project setup.lib state with
  | .error e => .error e
  | .ok (proj, projector) =>
    let o : Offered := ⟨state.ts, state.fixtureId, (a.record state).arenaTickSeq, proj⟩
    .ok (({ a.record state with projector := projector }.stepDet setup o).openLlm setup o).2

theorem blind_congr {events : List ArenaCheckpointEvent} {slot : Slot RawOutput AgentAction}
    {reading : ℚ} (h : ∀ e ∈ events, shared e = false) :
    ({ a with clock := reading, slot := slot, events := a.events ++ events } :
      ArenaComparison).blind = a.blind := by
  have hnone : events.filter shared = [] := List.filter_eq_nil_iff.mpr fun e he => by simp [h e he]
  simp [blind, List.filter_append, hnone]

theorem record_blind : (a.blind.record state).blind = (a.record state).blind := by
  have hfilter : (a.events.filter shared).filter shared = a.events.filter shared := by simp
  simp only [blind, record, hfilter]
  rfl

theorem stepDet_blind : (a.blind.stepDet setup o).blind = (a.stepDet setup o).blind := by
  unfold stepDet
  cases hcheckpoint : setup.detPolicy.isCheckpoint o.ts a.detLastCpAt o.snapshot
      a.detLastSnapshot with
  | false => simp [blind, hcheckpoint]
  | true =>
    cases hproj : o.proj with
    | none => simp [blind, hcheckpoint]
    | some proj => simp [blind, hcheckpoint, List.filter_append]

theorem openLlm_blind :
    (a.blind.openLlm setup o).2.blind = (a.openLlm setup o).2.blind := by
  unfold openLlm
  cases hcheckpoint : setup.llmPolicy.isCheckpoint o.ts a.llmLastCpAt o.snapshot
      a.llmLastSnapshot with
  | false => simp [blind, hcheckpoint]
  | true =>
    cases hsnapshot : o.snapshot with
    | none =>
      rw [hsnapshot] at hcheckpoint
      simp [blind, hcheckpoint]
    | some snapshot =>
      rw [hsnapshot] at hcheckpoint
      simp [blind, hcheckpoint, List.filter_append]

/-- What keeps blind views keeps their equality. -/
theorem blind_of_blind {f : ArenaComparison → ArenaComparison}
    (hf : ∀ a, (f a.blind).blind = (f a).blind) (h : a.blind = b.blind) :
    (f a).blind = (f b).blind := by
  rw [← hf a, ← hf b, h]

/-- **An offer depends on the blind view alone.** -/
theorem offer_blind (h : a.blind = b.blind) {a' b' : ArenaComparison}
    (ha : a.offer setup state = .ok a') (hb : b.offer setup state = .ok b') :
    a'.blind = b'.blind := by
  have hrecord := blind_of_blind (f := record state) (fun _ => record_blind) h
  have hprojector : (a.record state).projector = (b.record state).projector :=
    (congrArg ArenaComparison.projector hrecord :)
  have hseq : (a.record state).arenaTickSeq = (b.record state).arenaTickSeq :=
    (congrArg ArenaComparison.arenaTickSeq hrecord :)
  unfold offer at ha hb
  rw [hprojector, hseq] at ha
  cases hproject : (b.record state).projector.project setup.lib state with
  | error e =>
    rw [hproject] at hb
    exact nomatch hb
  | ok projected =>
    rw [hproject] at ha hb
    obtain ⟨proj, projector⟩ := projected
    simp only [Except.ok.injEq] at ha hb
    rw [← ha, ← hb]
    refine blind_of_blind (f := fun a => (a.openLlm setup _).2) (fun _ => openLlm_blind) ?_
    refine blind_of_blind (f := fun a => a.stepDet setup _) (fun _ => stepDet_blind) ?_
    exact congrArg (fun a => { a with projector := projector }) hrecord

/-- **A tick that returns is an offer**, whatever its model does. -/
theorem step_offers (h : LlmSound setup a) (hstep : a.step setup state = (.ok (), a')) :
    ∃ b, a.offer setup state = .ok b ∧ b.blind = a'.blind := by
  unfold step at hstep
  unfold offer
  cases hproject : (a.record state).projector.project setup.lib state with
  | error e =>
    simp only [hproject] at hstep
    exact nomatch (Prod.mk.inj hstep).1
  | ok projected =>
    obtain ⟨proj, projector'⟩ := projected
    simp only [hproject] at hstep
    generalize ho : (⟨state.ts, state.fixtureId, (a.record state).arenaTickSeq, proj⟩ : Offered) = o
      at hstep
    refine ⟨_, rfl, ?_⟩
    rw [ho]
    obtain ⟨outcome, served, -, hcases⟩ := stepLlm_cases (llmSound_stepDet h).sound hstep
    rcases hcases with ⟨call, raw, evidenceHash, -, -, rfl⟩ |
      ⟨snapshot, handle, -, -, -, -, rfl⟩ | ⟨skipped, slot, hskipped, -, rfl⟩
    · exact (blind_congr (by simp [shared, Offered.decision, Offered.event])).symm
    · exact (blind_congr (by simp [shared, Offered.event])).symm
    · refine (blind_congr fun e he => ?_).symm
      simp [shared, (hskipped e he).1, (hskipped e he).2]

/-- **Two comparisons of one tape**, under two models, stay of one blind view. -/
theorem runTicks_blind : ∀ {tape : List MarketState} {a b a' b' : ArenaComparison},
    LlmSound { setup with model := m₁ } a → LlmSound { setup with model := m₂ } b →
    a.blind = b.blind → runTicks { setup with model := m₁ } tape a = (.ok (), a') →
    runTicks { setup with model := m₂ } tape b = (.ok (), b') → a'.blind = b'.blind := by
  intro tape
  induction tape with
  | nil =>
    intro a b a' b' _ _ h ha hb
    obtain ⟨-, rfl⟩ := Prod.mk.inj ha
    obtain ⟨-, rfl⟩ := Prod.mk.inj hb
    exact h
  | cons state tape ih =>
    intro a b a' b' hsoundA hsoundB h ha hb
    cases hstepA : a.step { setup with model := m₁ } state with
    | mk resultA c =>
    cases hstepB : b.step { setup with model := m₂ } state with
    | mk resultB d =>
    simp only [runTicks, hstepA] at ha
    simp only [runTicks, hstepB] at hb
    cases resultA with
    | error e => cases (Prod.mk.inj ha).1
    | ok _ =>
    cases resultB with
    | error e => cases (Prod.mk.inj hb).1
    | ok _ =>
    obtain ⟨c', hofferA, hc⟩ := step_offers hsoundA hstepA
    obtain ⟨d', hofferB, hd⟩ := step_offers hsoundB hstepB
    refine ih (llmSound_step hsoundA hstepA) (llmSound_step hsoundB hstepB) ?_ ha hb
    rw [← hc, ← hd]
    exact offer_blind h hofferA hofferB

/-- The drain leaves the blind view alone. -/
theorem blind_drains (view : ArenaComparison) : Drains setup fun a => a.blind = view where
  clock _ _ h := h
  quiet _ _ _ h _ := h
  decided a o call raw evidenceHash served h _ := by
    rw [← h]
    exact blind_congr (by simp [shared, Offered.decision, Offered.event])

/-- **Noninterference**: comparisons of one tape that return are of one blind view, whatever their
models do. -/
theorem blind_eq
    (ha : runArenaComparison { setup with model := m₁ } projector tape = (.ok (), a))
    (hb : runArenaComparison { setup with model := m₂ } projector tape = (.ok (), b)) :
    a.blind = b.blind := by
  rcases run_cases ha with ⟨-, hraised⟩ | ⟨c, hticksA, hdrainA⟩
  · exact absurd rfl hraised
  rcases run_cases hb with ⟨-, hraised⟩ | ⟨d, hticksB, hdrainB⟩
  · exact absurd rfl hraised
  have hticks := runTicks_blind (a := init { setup with model := m₁ } projector)
    (b := init { setup with model := m₂ } projector) llmSound_init llmSound_init rfl hticksA hticksB
  rw [(blind_drains c.blind).drain rfl hdrainA, hticks, (blind_drains d.blind).drain rfl hdrainB]

/-! ## What the blind view shows -/

/-- The events of the deterministic contestant. -/
def detEvents (a : ArenaComparison) : List ArenaCheckpointEvent :=
  a.events.filter fun e => e.contestant = .detDrift

theorem opportunities_blind (contestant : Contestant) :
    a.blind.opportunities contestant = a.opportunities contestant := by
  simp only [opportunities, blind, List.filter_filter]
  congr 1
  refine List.filter_congr fun e _ => ?_
  by_cases hkind : e.kind = .opportunity
  · simp [shared, hkind]
  · simp [hkind]

theorem detEvents_blind : a.blind.detEvents = a.detEvents := by
  simp only [detEvents, blind, List.filter_filter]
  refine List.filter_congr fun e _ => ?_
  by_cases hcontestant : e.contestant = .detDrift
  · simp [shared, hcontestant]
  · simp [hcontestant]

/-! ## The two grids -/

/-- The events of a checkpoint of the deterministic contestant. -/
def offeredDet (setup : ArenaSetup) (o : Offered) (a : ArenaComparison) (action : AgentAction) :
    List ArenaCheckpointEvent :=
  match setup.detPolicy.isCheckpoint o.ts a.detLastCpAt o.snapshot a.detLastSnapshot, o.proj with
  | true, some proj => [o.event .detDrift .opportunity proj.snapshot.evidenceHash,
      o.decision .detDrift proj.snapshot.evidenceHash action]
  | _, _ => []

/-- The deterministic contestant's part of a tick. -/
theorem stepDet_offers (setup : ArenaSetup) (o : Offered) (a : ArenaComparison) : ∃ action,
    (a.stepDet setup o).events = a.events ++ offeredDet setup o a action ∧
    (a.stepDet setup o).detLastSnapshot = o.snapshot ∧
    (a.stepDet setup o).llmLastSnapshot = a.llmLastSnapshot ∧
    (a.stepDet setup o).detLastCpAt =
      if setup.detPolicy.isCheckpoint o.ts a.detLastCpAt o.snapshot a.detLastSnapshot then
        some (o.ts : ℚ)
      else a.detLastCpAt := by
  unfold stepDet offeredDet
  cases hcheckpoint : setup.detPolicy.isCheckpoint o.ts a.detLastCpAt o.snapshot
      a.detLastSnapshot with
  | false => exact ⟨wait, by simp⟩
  | true =>
    cases hproj : o.proj with
    | none => exact ⟨wait, by simp⟩
    | some proj => exact ⟨_, List.append_assoc .., by simp⟩

/-- What events offer a contestant. -/
def offersTo (contestant : Contestant) (events : List ArenaCheckpointEvent) : List (ℤ × String) :=
  (events.filter fun e => e.contestant = contestant && e.kind = .opportunity).map
    fun e => (e.checkpointTs, e.evidenceHash)

theorem opportunities_append {events : List ArenaCheckpointEvent}
    (h : b.events = a.events ++ events) (contestant : Contestant) :
    b.opportunities contestant = a.opportunities contestant ++ offersTo contestant events := by
  rw [opportunities, h, List.filter_append, List.map_append]
  rfl

/-- What a checkpoint offers, of the tick's projection. -/
def offersOf (o : Offered) : List (ℤ × String) :=
  (o.snapshot.map fun snapshot => (o.ts, snapshot.evidenceHash)).toList

theorem offersTo_offeredDet (contestant : Contestant) (action : AgentAction) :
    offersTo contestant (offeredDet setup o a action) =
      if contestant = .detDrift ∧ setup.detPolicy.isCheckpoint o.ts a.detLastCpAt o.snapshot
        a.detLastSnapshot then offersOf o else [] := by
  unfold offeredDet offersOf
  cases setup.detPolicy.isCheckpoint o.ts a.detLastCpAt o.snapshot a.detLastSnapshot with
  | false => simp [offersTo]
  | true =>
    cases hproj : o.proj with
    | none => simp [offersTo, Offered.snapshot, hproj]
    | some proj =>
      cases contestant <;>
        simp [offersTo, Offered.snapshot, hproj, Offered.event, Offered.decision]

theorem offersTo_offeredLlm (contestant : Contestant) :
    offersTo contestant (a.offeredLlm setup o) =
      if contestant = .llmDrift ∧ (a.openLlm setup o).1 then offersOf o else [] := by
  unfold offeredLlm offersOf
  cases (a.openLlm setup o).1 with
  | false => simp [offersTo]
  | true =>
    cases o.snapshot with
    | none => simp [offersTo]
    | some snapshot => cases contestant <;> simp [offersTo, Offered.event]

/-- The two checkpoint grids stand alike, and the same was offered on both. -/
structure Twin (a : ArenaComparison) : Prop where
  lastCpAt : a.detLastCpAt = a.llmLastCpAt
  lastSnapshot : a.detLastSnapshot = a.llmLastSnapshot
  opportunities : a.opportunities .detDrift = a.opportunities .llmDrift

theorem Twin.of_blind (h : a.Twin) (hblind : a.blind = b.blind) : b.Twin where
  lastCpAt := (congrArg detLastCpAt hblind).symm.trans
    (h.lastCpAt.trans (congrArg llmLastCpAt hblind :))
  lastSnapshot := (congrArg detLastSnapshot hblind).symm.trans
    (h.lastSnapshot.trans (congrArg llmLastSnapshot hblind :))
  opportunities := by
    rw [← opportunities_blind (a := b), ← opportunities_blind (a := b), ← hblind,
      opportunities_blind, opportunities_blind, h.opportunities]

/-- **An offer keeps the grids alike**, under one policy. -/
theorem twin_offer (hpolicy : setup.llmPolicy = setup.detPolicy) (h : a.Twin)
    (hoffer : a.offer setup state = .ok b) : b.Twin := by
  unfold offer at hoffer
  cases hproject : (a.record state).projector.project setup.lib state with
  | error e =>
    rw [hproject] at hoffer
    exact nomatch hoffer
  | ok projected =>
    obtain ⟨proj, projector'⟩ := projected
    rw [hproject] at hoffer
    simp only [Except.ok.injEq] at hoffer
    subst hoffer
    generalize ho : (⟨state.ts, state.fixtureId, (a.record state).arenaTickSeq, proj⟩ : Offered) = o
    obtain ⟨action, hevents, hsnapshot, hllmSnapshot, hcp⟩ := stepDet_offers setup o
      { a.record state with projector := projector' }
    obtain ⟨-, -, hllmCp, -⟩ := stepDet_frame setup o
      { a.record state with projector := projector' }
    generalize { a.record state with projector := projector' }.stepDet setup o = c at *
    -- the same checkpoint opens for both
    have hopen : (c.openLlm setup o).1 =
        setup.detPolicy.isCheckpoint o.ts a.detLastCpAt o.snapshot a.detLastSnapshot := by
      rw [openLlm_opens, hllmCp, hllmSnapshot, hpolicy, h.lastCpAt, h.lastSnapshot]
      rfl
    have hoffers := opportunities_append (a := a) (b := c) hevents
    have hopened : (c.openLlm setup o).2.events = c.events ++ c.offeredLlm setup o := by
      rw [openLlm_eq]
    constructor
    · rw [openLlm_lastCpAt, hopen, openLlm_eq, hcp, hllmCp]
      exact if_congr Iff.rfl rfl h.lastCpAt
    · rw [openLlm_eq]
      exact hsnapshot
    · rw [opportunities_append hopened, opportunities_append hopened, hoffers, hoffers,
        offersTo_offeredLlm, offersTo_offeredLlm, hopen, h.opportunities]
      simp only [offersTo_offeredDet, reduceCtorEq, false_and, if_false, List.append_nil, true_and]
      rfl

/-- **Under one policy** the grids of a comparison that returns are alike. -/
theorem arena_twin (setup : ArenaSetup) (hpolicy : setup.llmPolicy = setup.detPolicy)
    (hrun : runArenaComparison setup projector tape = (.ok (), a)) : a.Twin := by
  rcases run_cases hrun with ⟨-, hraised⟩ | ⟨b, hticks, hdrain⟩
  · exact absurd rfl hraised
  · have hb : LlmSound setup b ∧ b.Twin := by
      refine runTicks_returned (fun a => LlmSound setup a ∧ a.Twin) ?_
        ⟨llmSound_init, rfl, rfl, rfl⟩ hticks
      intro state a a' h hstep
      obtain ⟨c, hoffer, hc⟩ := step_offers h.1 hstep
      exact ⟨llmSound_step h.1 hstep, (twin_offer hpolicy h.2 hoffer).of_blind hc⟩
    exact hb.2.of_blind ((blind_drains b.blind).drain rfl hdrain).symm

/-! ## No more actions than opportunities -/

/-- The actions some events tell of a contestant. -/
def actionsIn (contestant : Contestant) (events : List ArenaCheckpointEvent) : ℕ :=
  (events.filter fun e => e.contestant = contestant).countP (·.isNonWait)

theorem actions_append {events : List ArenaCheckpointEvent} (h : b.events = a.events ++ events)
    (contestant : Contestant) :
    b.actions contestant = a.actions contestant + actionsIn contestant events := by
  rw [actions, h, List.filter_append, List.countP_append]
  rfl

/-- Actions are no more than opportunities, the call in flight counted as one to come. -/
structure Counted (a : ArenaComparison) : Prop where
  det : a.actions .detDrift ≤ (a.opportunities .detDrift).length
  llm : a.actions .llmDrift + (if a.slot.guard.call.isSome then 1 else 0) ≤
    (a.opportunities .llmDrift).length

theorem actionsIn_offeredDet (setup : ArenaSetup) (o : Offered) (a : ArenaComparison)
    (action : AgentAction) :
    actionsIn .detDrift (offeredDet setup o a action) ≤
        (offersTo .detDrift (offeredDet setup o a action)).length ∧
      actionsIn .llmDrift (offeredDet setup o a action) = 0 := by
  unfold offeredDet
  split
  · constructor
    · simp [actionsIn, offersTo, Offered.event, Offered.decision,
        ArenaCheckpointEvent.isNonWait, List.countP_cons]
      split_ifs <;> simp
    · simp [actionsIn, Offered.event, Offered.decision]
  · simp [actionsIn]

theorem counted_stepDet (h : a.Counted) : (a.stepDet setup o).Counted := by
  obtain ⟨action, hevents, -⟩ := stepDet_offers setup o a
  obtain ⟨hslot, -⟩ := stepDet_frame setup o a
  obtain ⟨hdet, hllm⟩ := actionsIn_offeredDet setup o a action
  have hdetOld := h.det
  have hllmOld := h.llm
  constructor
  · rw [actions_append hevents, opportunities_append hevents, List.length_append]
    omega
  · rw [actions_append hevents, opportunities_append hevents, List.length_append, hslot, hllm]
    omega

/-- A call that is still in flight after a service was in flight before it. -/
theorem busy_of_leaves {limit : ℚ} {s s' : Slot RawOutput AgentAction}
    {outcome : ServiceOutcome RawOutput} (h : Slot.Leaves limit s s' outcome)
    (hbusy : s'.guard.call.isSome = true) : s.guard.call.isSome = true := by
  cases outcome with
  | idle =>
    obtain ⟨-, rfl⟩ := h
    exact hbusy
  | inFlight _ | awaitingConfirmation _ =>
    obtain ⟨c, -, hc, -⟩ := h
    rw [hc]
    rfl
  | completedFresh _ _ _ | confirmedTerminated _ | completedStale _ | failed _ _ =>
    rw [h.1] at hbusy
    exact nomatch hbusy

/-- One decision is one action at most. -/
theorem actionsIn_decision (contestant : Contestant) (evidenceHash : String) (action : AgentAction) :
    actionsIn .llmDrift [o.decision contestant evidenceHash action] ≤ 1 ∧
      actionsIn .detDrift [o.decision .llmDrift evidenceHash action] = 0 ∧
      ∀ c, offersTo c [o.decision contestant evidenceHash action] = [] := by
  refine ⟨?_, ?_, ?_⟩
  · exact List.countP_le_length.trans (List.length_filter_le _ _)
  · simp [actionsIn, Offered.decision, Offered.event]
  · simp [offersTo, Offered.decision, Offered.event]

theorem counted_decided {served : Slot RawOutput AgentAction} {call : ℕ} {raw : RawOutput}
    {evidenceHash : String} (h : a.Counted) (hbusy : a.slot.guard.call.isSome = true)
    (hfree : served.guard.call = none) :
    (emitLlmDecision setup o call raw evidenceHash { a with slot := served }).Counted := by
  obtain ⟨hone, hzero, hoffers⟩ := actionsIn_decision (o := o) .llmDrift evidenceHash
    (decisionOf setup.lib raw)
  have hevents : (emitLlmDecision setup o call raw evidenceHash { a with slot := served }).events =
      a.events ++ [o.decision .llmDrift evidenceHash (decisionOf setup.lib raw)] := rfl
  have hslot : (emitLlmDecision setup o call raw evidenceHash
      { a with slot := served }).slot.guard.call = none := hfree
  have hdet := h.det
  have hllm := h.llm
  rw [hbusy] at hllm
  constructor
  · rw [actions_append hevents, opportunities_append hevents, hoffers, hzero]
    simpa using hdet
  · rw [actions_append hevents, opportunities_append hevents, hoffers, hslot]
    simp only [if_true, Option.isSome_none, Bool.false_eq_true, if_false, List.append_nil] at hllm ⊢
    omega

/-- Events that are neither decisions nor opportunities count for nothing. -/
theorem counts_silent {events : List ArenaCheckpointEvent} (hevents : b.events = a.events ++ events)
    (h : ∀ e ∈ events, e.kind = .launched ∨ e.kind = .skippedInflight) (contestant : Contestant) :
    b.actions contestant = a.actions contestant ∧
      b.opportunities contestant = a.opportunities contestant := by
  have hactions : actionsIn contestant events = 0 := by
    refine List.countP_eq_zero.mpr fun e he => ?_
    rcases h e (List.mem_filter.mp he).1 with hkind | hkind
    · simp [ArenaCheckpointEvent.isNonWait, hkind]
    · simp [ArenaCheckpointEvent.isNonWait, hkind]
  have hoffers : offersTo contestant events = [] := by
    refine List.map_eq_nil_iff.mpr (List.filter_eq_nil_iff.mpr fun e he => ?_)
    rcases h e he with hkind | hkind
    · simp [hkind]
    · simp [hkind]
  rw [actions_append hevents, opportunities_append hevents, hactions, hoffers]
  exact ⟨rfl, List.append_nil _⟩

theorem counted_stepLlm (hsound : LlmSound setup a) (h : a.Counted)
    (hstep : a.stepLlm setup o = (result, a')) : a'.Counted := by
  obtain ⟨outcome, served, hserve, hcases⟩ := stepLlm_cases hsound.sound hstep
  obtain ⟨-, hleaves, -⟩ := Slot.sound_service (Slot.sound_advance hsound.sound) hserve
  have hopened : (a.openLlm setup o).2.events = a.events ++ a.offeredLlm setup o := by
    rw [openLlm_eq]
  have hslot : (a.openLlm setup o).2.slot = a.slot := by rw [openLlm_eq]
  have hnone : ∀ contestant, actionsIn contestant (a.offeredLlm setup o) = 0 := by
    intro contestant
    refine List.countP_eq_zero.mpr fun e he => ?_
    simp [ArenaCheckpointEvent.isNonWait, offeredLlm_opportunity (List.mem_filter.mp he).1]
  have hdet : (a.openLlm setup o).2.actions .detDrift ≤
      ((a.openLlm setup o).2.opportunities .detDrift).length := by
    rw [actions_append hopened, opportunities_append hopened, hnone, List.length_append]
    exact h.det.trans (Nat.le_add_right _ _)
  have hllm : (a.openLlm setup o).2.actions .llmDrift +
      (if a.slot.guard.call.isSome then 1 else 0) +
      (offersTo .llmDrift (a.offeredLlm setup o)).length ≤
      ((a.openLlm setup o).2.opportunities .llmDrift).length := by
    rw [actions_append hopened, opportunities_append hopened, hnone, List.length_append]
    exact Nat.add_le_add_right h.llm _
  rcases hcases with ⟨call, raw, evidenceHash, rfl, -, rfl⟩ |
    ⟨snapshot, handle, rfl, hopen, hsnapshot, -, rfl⟩ | ⟨skipped, slot, hskipped, hleft, rfl⟩
  · obtain ⟨hfree, -, c, hc, -⟩ := hleaves
    have hbusy : (a.openLlm setup o).2.slot.guard.call.isSome = true := by
      rw [hslot]
      exact Option.isSome_of_eq_some hc
    refine counted_decided ⟨hdet, ?_⟩ hbusy hfree
    rw [hslot]
    exact (Nat.le_add_right _ _).trans hllm
  · -- the call that is launched takes the opportunity that was just offered
    have hsilent := counts_silent (a := (a.openLlm setup o).2)
      (b := { (a.openLlm setup o).2 with
        slot := served.advance.launched handle snapshot.evidenceHash o.ts a.clock
        events := (a.openLlm setup o).2.events ++
          [o.event .llmDrift .launched snapshot.evidenceHash] })
      rfl fun e he => .inl (by rw [List.mem_singleton.mp he]; rfl)
    have hoffered : (offersTo .llmDrift (a.offeredLlm setup o)).length = 1 := by
      rw [offersTo_offeredLlm, hopen, offersOf, hsnapshot]
      rfl
    constructor
    · rw [(hsilent .detDrift).1, (hsilent .detDrift).2]
      exact hdet
    · rw [(hsilent .llmDrift).1, (hsilent .llmDrift).2]
      simp only [Slot.launched, Option.isSome_some, if_true]
      omega
  · have hsilent := counts_silent (a := (a.openLlm setup o).2)
      (b := { (a.openLlm setup o).2 with
        slot := slot
        events := (a.openLlm setup o).2.events ++ skipped })
      rfl fun e he => .inr (hskipped e he).2
    have hserved : served.guard.call.isSome = true → a.slot.advance.guard.call.isSome = true :=
      busy_of_leaves hleaves
    have hstill : slot.guard.call.isSome = true → a.slot.guard.call.isSome = true := by
      rcases hleft with rfl | rfl
      · exact hserved
      · exact hserved
    constructor
    · rw [(hsilent .detDrift).1, (hsilent .detDrift).2]
      exact hdet
    · rw [(hsilent .llmDrift).1, (hsilent .llmDrift).2]
      simp only
      split_ifs with hbusy
      · rw [if_pos (hstill hbusy)] at hllm
        omega
      · omega

/-- **A tick keeps the counts.** -/
theorem counted_step (hsound : LlmSound setup a) (h : a.Counted)
    (hstep : a.step setup state = (result, a')) : a'.Counted := by
  unfold step at hstep
  cases hproject : (a.record state).projector.project setup.lib state with
  | error e =>
    simp only [hproject] at hstep
    obtain ⟨-, rfl⟩ := Prod.mk.inj hstep
    exact ⟨h.det, h.llm⟩
  | ok projected =>
    simp only [hproject] at hstep
    refine counted_stepLlm (llmSound_stepDet hsound) (counted_stepDet ?_) hstep
    exact ⟨h.det, h.llm⟩

/-- The drain keeps the counts. -/
theorem counted_drains : Drains setup fun a => LlmSound setup a ∧ a.Counted where
  clock _ _ h := ⟨llmSound_drains.clock _ _ h.1, h.2.det, h.2.llm⟩
  quiet a outcome served h hserve := by
    obtain ⟨-, hleaves, -⟩ := Slot.sound_service (Slot.sound_advance h.1.sound) hserve
    refine ⟨llmSound_drains.quiet _ _ _ h.1 hserve, h.2.det, ?_⟩
    have hstill : served.guard.call.isSome = true → a.slot.advance.guard.call.isSome = true :=
      busy_of_leaves hleaves
    have hllm := h.2.llm
    simp only
    split_ifs with hbusy
    · have hbefore : a.slot.guard.call.isSome = true := hstill hbusy
      rw [if_pos hbefore] at hllm
      exact hllm
    · exact (Nat.le_add_right _ _).trans hllm
  decided a o call raw evidenceHash served h hserve := by
    obtain ⟨-, hleaves, -⟩ := Slot.sound_service (Slot.sound_advance h.1.sound) hserve
    obtain ⟨hfree, -, c, hc, -⟩ := hleaves
    exact ⟨llmSound_drains.decided _ _ _ _ _ _ h.1 hserve,
      counted_decided h.2 (Option.isSome_of_eq_some hc) hfree⟩

/-- **After every comparison**, ended or raised, no contestant acted more often than it was offered. -/
theorem arena_counted (hrun : runArenaComparison setup projector tape = (result, a)) :
    a.Counted := by
  have hticks : ∀ {result b}, runTicks setup tape (init setup projector) = (result, b) →
      LlmSound setup b ∧ b.Counted := by
    intro result b h
    obtain ⟨-, hb⟩ := runTicks_invariant (fun _ a => LlmSound setup a ∧ a.Counted)
      (fun _ _ _ _ _ h hstep => ⟨llmSound_step h.1 hstep, counted_step h.1 h.2 hstep⟩)
      ⟨llmSound_init, le_refl 0, le_refl 0⟩ h
    exact hb
  rcases run_cases hrun with ⟨hb, -⟩ | ⟨b, hb, hdrain⟩
  · exact (hticks hb).2
  · exact (counted_drains.drain (hticks hb) hdrain).2

/-! ## A comparison of one tick -/

/-- A tick with one market of one side. -/
def arenaTick (fixtureId ts : ℤ) : MarketState where
  fixtureId := fixtureId
  tickSeq := 0
  ts := ts
  phase := 0
  markets := [("1X2", [("stable_prob_bps", .obj [("home", .int 6000)])])]
  scores := []
  marketsCanonical := by simp [marketsJson, Json.Canonical, Json.CanonicalFields]
  scoresCanonical := trivial

/-- A comparison whose model answers `raw` at once. -/
def answeringSetup (raw : RawOutput) : ArenaSetup :=
  ⟨plainLibrary, answering raw, defaultPolicy, defaultPolicy, {}⟩

theorem overTenThousand_bps :
    overTenThousand (.int 6000) = .ok ((PyFloat.fin 6000).div (.fin 10000)) := by
  have hbound : |((6000 : ℤ) : ℚ)| < PyFloat.overflowBound := by
    rw [PyFloat.overflowBound]
    norm_num
    decide +kernel
  simp only [overTenThousand, Decoded.number, Decoded.toFloat, Decoded.scalar, Value.toFloat,
    if_pos hbound]
  rfl

theorem home_open : List.lookup "suspended"
    [("stable_prob_bps", (Json.obj [("home", .int 6000)] : Decoded))] = none := rfl

theorem home_probs : List.lookup "stable_prob_bps"
    [("stable_prob_bps", (Json.obj [("home", .int 6000)] : Decoded))] =
      some (.obj [("home", .int 6000)]) := rfl

/-- The first tick of a fixture is projected. -/
theorem project_arenaTick (fixtureId ts : ℤ) : ∃ proj projector',
    ArenaSharedProjector.project plainLibrary {} (arenaTick fixtureId ts) =
      .ok (some proj, projector') ∧ proj.snapshot.tickCount = 1 := by
  have hside : ∃ proj projector', projectSide plainLibrary ts "1X2" (none, { callCount := 1 })
      ("home", .int 6000) = .ok (some proj, projector') ∧ proj.snapshot.tickCount = 1 := by
    simp only [projectSide, Decoded.scalar, Value.toInt, overTenThousand_bps]
    exact ⟨_, _, rfl, rfl⟩
  obtain ⟨proj, projector', hside, hcount⟩ := hside
  have hmarket : projectMarket plainLibrary ts (none, { callCount := 1 })
      ("1X2", [("stable_prob_bps", .obj [("home", .int 6000)])]) = .ok (some proj, projector') := by
    simp only [projectMarket, home_open, home_probs, Option.getD_none, Decoded.truthy, Bool.and_false,
      Option.getD_some, List.foldlM_cons, List.foldlM_nil, hside]
    rfl
  refine ⟨proj, projector', ?_, hcount⟩
  simp only [ArenaSharedProjector.project, arenaTick, List.foldlM_cons, List.foldlM_nil]
  rw [hmarket]
  rfl

/-- A call that is done when the drain starts is emitted at its first service. -/
theorem drain_answered (setup : ArenaSetup) {call : ℕ} {raw : RawOutput} {evidenceHash : String}
    (hcall : a.slot.guard.call =
      some ⟨call, .done (.returned raw), evidenceHash, a.clock, false⟩)
    (hlimit : 0 ≤ a.slot.guard.limit) : ∃ served, a.drain setup =
      (.ok (), emitLlmDecision setup a.drainTick call raw evidenceHash
        { a with slot := served }) := by
  refine ⟨{ a.slot.advance with
    guard := { a.slot.guard with call := none }
    history := a.slot.history ++ [.observed call (some (.returned raw)) 0] }, ?_⟩
  have hserve : a.service = (.completedFresh call raw evidenceHash, { a with
      slot := { a.slot.advance with
        guard := { a.slot.guard with call := none }
        history := a.slot.history ++ [.observed call (some (.returned raw)) 0] } }) := by
    simp [service, Slot.service, hcall, CallHandle.done, InflightGuard.serviceCall, hlimit,
      Slot.advance]
  have hfirst : drainPhase1 setup a.drainTick maxYields a =
      drainPhase1 setup a.drainTick (255 + 1) a := rfl
  simp only [drain, InflightGuard.busy, hcall, hfirst, drainPhase1, hserve]
  rfl

/-- The trail of one tick, once its call is launched. -/
def launchedTrail (evidenceHash : String) : List ArenaCheckpointEvent :=
  let o : Offered := ⟨100, 7, 0, none⟩
  [o.event .detDrift .opportunity evidenceHash, o.decision .detDrift evidenceHash wait,
    o.event .llmDrift .opportunity evidenceHash, o.event .llmDrift .launched evidenceHash]

theorem launchedTrail_waits {evidenceHash : String} {e : ArenaCheckpointEvent}
    (he : e ∈ launchedTrail evidenceHash) : e.isNonWait = false := by
  simp only [launchedTrail, List.mem_cons, List.not_mem_nil, or_false] at he
  rcases he with rfl | rfl | rfl | rfl
  · rfl
  · rfl
  · rfl
  · rfl

/-- One tick launches a call. -/
theorem oneTick_step (raw : RawOutput) : ∃ a evidenceHash,
    (init (answeringSetup raw) {}).step (answeringSetup raw) (arenaTick 7 100) = (.ok (), a) ∧
    a.slot.guard = ⟨30, some ⟨0, .done (.returned raw), evidenceHash, 100, false⟩⟩ ∧
    a.clock = 100 ∧ a.lastCoord = some (7, 0) ∧ a.stateByCoord = [((7, 0), arenaTick 7 100)] ∧
    a.marketstates = [arenaTick 7 100] ∧ a.events = launchedTrail evidenceHash := by
  obtain ⟨proj, projector', hproject, hcount⟩ := project_arenaTick 7 100
  have hdet : detDecideFromSnapshot {} proj = wait := by
    rw [detDecideFromSnapshot, hcount]
    rfl
  have hproject' : ((init (answeringSetup raw) {}).record (arenaTick 7 100)).projector.project
      (answeringSetup raw).lib (arenaTick 7 100) = .ok (some proj, projector') := hproject
  unfold step
  simp only [hproject']
  refine ⟨_, proj.snapshot.evidenceHash, Prod.ext rfl rfl, rfl, rfl, rfl, rfl, rfl, ?_⟩
  change [(⟨100, 7, 0, none⟩ : Offered).event .detDrift .opportunity proj.snapshot.evidenceHash,
    (⟨100, 7, 0, none⟩ : Offered).decision .detDrift proj.snapshot.evidenceHash
      (if (detDecideFromSnapshot {} proj).type ≠ .wait ∧ (-1 + 1 : ℤ) - -1000000000 ≤ 5 then wait
        else detDecideFromSnapshot {} proj),
    (⟨100, 7, 0, none⟩ : Offered).event .llmDrift .opportunity proj.snapshot.evidenceHash,
    (⟨100, 7, 0, none⟩ : Offered).event .llmDrift .launched proj.snapshot.evidenceHash] =
      launchedTrail proj.snapshot.evidenceHash
  rw [hdet]
  rfl

/-- The trail of one tick whose call is answered in the drain. -/
def oneTickTrail (raw : RawOutput) (evidenceHash : String) : List ArenaCheckpointEvent :=
  launchedTrail evidenceHash ++ [(⟨100, 7, 0, none⟩ : Offered).decision .llmDrift evidenceHash
    (decisionOf plainLibrary raw)]

theorem oneTick_run (raw : RawOutput) : ∃ a evidenceHash,
    runArenaComparison (answeringSetup raw) {} [arenaTick 7 100] = (.ok (), a) ∧
    a.events = oneTickTrail raw evidenceHash ∧
    a.stateByCoord = [((7, 0), arenaTick 7 100)] ∧ a.marketstates = [arenaTick 7 100] := by
  obtain ⟨a, evidenceHash, hstep, hguard, hclock, hcoord, hstates, htape, hevents⟩ :=
    oneTick_step raw
  have hcall : a.slot.guard.call =
      some ⟨0, .done (.returned raw), evidenceHash, a.clock, false⟩ := by
    rw [hguard, hclock]
  obtain ⟨served, hdrain⟩ := drain_answered (answeringSetup raw) hcall
    (by rw [hguard]; norm_num)
  refine ⟨emitLlmDecision (answeringSetup raw) a.drainTick 0 raw evidenceHash
    { a with slot := served }, evidenceHash, ?_, ?_, hstates, htape⟩
  · simp only [runArenaComparison, runTicks, hstep]
    exact hdrain
  · have htick : a.drainTick = ⟨100, 7, 0, none⟩ := by
      simp only [drainTick, hcoord, hclock, Option.getD_some]
      rfl
    rw [oneTickTrail, ← hevents, emitLlmDecision, htick]
    rfl

/-- An answer that follows the home side of a market. -/
def followHome (marketKey : Decoded) : RawOutput := .dict [("type", .str "FOLLOW_MOMENTUM"),
  ("params", .obj [("market_key", marketKey), ("side", .str "home")])]

theorem decision_followHome {marketKey : Decoded} (hsorted : marketKey.sorted = marketKey)
    (evidenceHash : String) (o : Offered) :
    o.decision .llmDrift evidenceHash (decisionOf plainLibrary (followHome marketKey)) =
      { o.event .llmDrift .decision evidenceHash with
        actionType := some .followMomentum
        marketKey := marketKey
        side := .str "home" } := by
  have hdecision : decisionOf plainLibrary (followHome marketKey) = ⟨.followMomentum,
      Json.sortedFields [("market_key", marketKey), ("side", .str "home")],
      Json.canonical_sortedFields _⟩ := rfl
  rw [hdecision]
  simp [Offered.decision, AgentAction.param, Json.lookup_sortedFields, List.lookup, Json.sorted,
    hsorted]

/-- The law answers on the home side of the tick's market. -/
theorem lawAnswers_home (hstates : a.stateByCoord = [((7, 0), arenaTick 7 100)])
    (htape : a.marketstates = [arenaTick 7 100]) (evidenceHash : String) :
    a.LawAnswers ratioFormat
      { (⟨100, 7, 0, none⟩ : Offered).event .llmDrift .decision evidenceHash with
        actionType := some .followMomentum
        marketKey := .str "1X2"
        side := .str "home" } := by
  intro entry hentry
  rw [hstates] at hentry
  obtain rfl : arenaTick 7 100 = entry := Option.some.inj hentry
  refine ⟨⟨_, rfl⟩, fun closing hclosing => ?_⟩
  have hclose : a.closingByMarket 7 "1X2" = some (arenaTick 7 100) := by
    rw [closingByMarket, htape]
    rfl
  have hclosing' : a.closingByMarket 7 "1X2" = closing := Except.ok.inj hclosing
  obtain rfl := hclose.symm.trans hclosing'
  simp only [recompute, AgentAction.param, ArenaCheckpointEvent.action, Json.lookup_sortedFields]
  exact ⟨_, rfl⟩

/-! ## Fairness -/

/-- A fair comparison: what was offered does not depend on the model. Under one policy both
contestants were offered the same, and the report says so exactly when anything was. -/
structure Fair (format : Json.FloatFormat PyFloat) (samePolicy : Prop) (a b : ArenaComparison) :
    Prop where
  detEvents : a.detEvents = b.detEvents
  opportunities : ∀ contestant, a.opportunities contestant = b.opportunities contestant
  within : samePolicy → ∀ c ∈ [a, b], c.opportunities .detDrift = c.opportunities .llmDrift
  reported : ∀ c ∈ [a, b], ∃ r, c.report format = .ok r ∧
    (samePolicy → (r.identicalOpportunities = true ↔ c.opportunities .detDrift ≠ [])) ∧
    ∀ contestant row, (contestant, row) ∈ r.contestants →
      row.actions ≤ row.eligibleCheckpoints ∧ row.scoreableDecisions ≤ row.actions

/-- The counts of a report. -/
theorem report_counted (h : a.Counted) {r : ArenaComparisonReport} (hreport : a.report format = .ok r)
    {contestant : Contestant} {row : ContestantRow} (hrow : (contestant, row) ∈ r.contestants) :
    row.actions ≤ row.eligibleCheckpoints ∧ row.scoreableDecisions ≤ row.actions := by
  obtain ⟨hactions, heligible, hscoreable⟩ := (report_tells hreport).2 contestant row hrow
  refine ⟨?_, hscoreable⟩
  rw [hactions, heligible]
  cases contestant with
  | detDrift => exact h.det
  | llmDrift => exact (Nat.le_add_right _ _).trans h.llm

end ArenaComparison

open ArenaComparison in
/-- **A fair comparison.** Two comparisons of one tape that return are fair, whatever their models
do, exactly when the law answers on every action of their trails. -/
theorem fair_iff {setup : ArenaSetup} {projector : ArenaSharedProjector} {tape : List MarketState}
    {m₁ m₂ : ModelLauncher} {a b : ArenaComparison} (format : Json.FloatFormat PyFloat)
    (ha : runArenaComparison { setup with model := m₁ } projector tape = (.ok (), a))
    (hb : runArenaComparison { setup with model := m₂ } projector tape = (.ok (), b)) :
    Fair format (setup.llmPolicy = setup.detPolicy) a b ↔
      ∀ c ∈ [a, b], ∀ e ∈ c.events, e.isNonWait = true → c.LawAnswers format e := by
  have hblind := blind_eq ha hb
  constructor
  · intro h c hc
    obtain ⟨r, hr, -⟩ := h.reported c hc
    exact report_ok.mp ⟨r, hr⟩
  · intro h
    have htwin : setup.llmPolicy = setup.detPolicy → ∀ c ∈ [a, b], c.Twin := by
      intro hpolicy c hc
      rcases List.mem_pair.mp hc with rfl | rfl
      · exact arena_twin { setup with model := m₁ } hpolicy ha
      · exact arena_twin { setup with model := m₂ } hpolicy hb
    have hcounted : ∀ c ∈ [a, b], c.Counted := by
      intro c hc
      rcases List.mem_pair.mp hc with rfl | rfl
      · exact arena_counted ha
      · exact arena_counted hb
    constructor
    · rw [← detEvents_blind, hblind, detEvents_blind]
    · intro contestant
      rw [← opportunities_blind, hblind, opportunities_blind]
    · exact fun hpolicy c hc => (htwin hpolicy c hc).opportunities
    · intro c hc
      obtain ⟨r, hr⟩ := report_ok.mpr (h c hc)
      refine ⟨r, hr, ?_, fun contestant row hrow => report_counted (hcounted c hc) hr hrow⟩
      intro hpolicy
      rw [(report_tells hr).1]
      exact and_iff_right (htwin hpolicy c hc).opportunities

open ArenaComparison in
/-- A comparison in which the model follows the market's side is fair beside one in which it answers
nothing. -/
theorem followed_fair : ∃ a b,
    runArenaComparison (answeringSetup (followHome (.str "1X2"))) {} [arenaTick 7 100] =
      (.ok (), a) ∧
    runArenaComparison (answeringSetup .other) {} [arenaTick 7 100] = (.ok (), b) ∧
    (∃ e ∈ a.events, e.isNonWait = true) ∧
    Fair ratioFormat (defaultPolicy = defaultPolicy) a b := by
  obtain ⟨a, evidenceHash, ha, hevents, hstates, htape⟩ := oneTick_run (followHome (.str "1X2"))
  obtain ⟨b, evidenceHash', hb, hevents', -⟩ := oneTick_run .other
  rw [oneTickTrail, decision_followHome rfl] at hevents
  have hfollowed : ∃ e ∈ a.events, e.isNonWait = true := by
    rw [hevents]
    exact ⟨_, List.mem_of_getLast? rfl, rfl⟩
  refine ⟨a, b, ha, hb, hfollowed, ?_⟩
  refine (@fair_iff (answeringSetup .other) {} [arenaTick 7 100]
    (answering (followHome (.str "1X2"))) (answering .other) a b ratioFormat ha hb).mpr ?_
  intro c hc e he hwait
  rcases List.mem_pair.mp hc with rfl | rfl
  · rw [hevents] at he
    rcases List.mem_append.mp he with he | he
    · exact nomatch hwait.symm.trans (launchedTrail_waits he)
    · obtain rfl := List.mem_singleton.mp he
      exact lawAnswers_home hstates htape evidenceHash
  · rw [hevents'] at he
    rcases List.mem_append.mp he with he | he
    · exact nomatch hwait.symm.trans (launchedTrail_waits he)
    · obtain rfl := List.mem_singleton.mp he
      exact nomatch hwait

open ArenaComparison in
/-- **An answer whose market is a list** leaves a comparison without a report, while a comparison of
the same tape has one. -/
theorem listedMarket_unfair : ∃ a b,
    runArenaComparison (answeringSetup (followHome (.arr [.str "1X2"]))) {} [arenaTick 7 100] =
      (.ok (), a) ∧
    runArenaComparison (answeringSetup .other) {} [arenaTick 7 100] = (.ok (), b) ∧
    ¬ Fair ratioFormat (defaultPolicy = defaultPolicy) a b := by
  obtain ⟨a, evidenceHash, ha, hevents, hstates, -⟩ :=
    oneTick_run (followHome (.arr [.str "1X2"]))
  obtain ⟨b, -, hb, -⟩ := oneTick_run .other
  refine ⟨a, b, ha, hb, fun hfair => ?_⟩
  obtain ⟨r, hr, -⟩ := hfair.reported a List.mem_cons_self
  have hmem : (⟨100, 7, 0, none⟩ : Offered).decision .llmDrift evidenceHash
      (decisionOf plainLibrary (followHome (.arr [.str "1X2"]))) ∈ a.events := by
    rw [hevents]
    simp [oneTickTrail]
  rw [decision_followHome rfl] at hmem
  obtain ⟨⟨name, hname⟩, -⟩ := report_ok.mp ⟨r, hr⟩ _ hmem rfl (arenaTick 7 100)
    (by rw [hstates]; rfl)
  exact nomatch hname

end Veridex.Runtime
