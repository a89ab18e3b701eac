import Veridex.DustExecution.SafetyRuns
import Veridex.Lib.Run

/-!
# A re-arm among concurrent triggers (`dust_execution/emergency.py`)

One `re_arm` call and any calls that can reach the cancel-all primitive run concurrently on one
session. A scheduler picks, at each step, which of them runs its next segment (`RaceStep`); a
sweep or a reconciler that was awaited answers or raises when its segment resumes.

The **window** of the re-arm is what happens between its first segment and the reconciler's
answer.

Results: `RaceRun.blocked_eq` (the block flag is the last word of the history), `trigger_kept_iff`,
`trigger_lost`.
-/

namespace Veridex.DustExecution

open Veridex.Py Veridex.Policy Veridex.Lib

/-- Where the re-arm stands. -/
inductive ReArmPc where
  | idle
  | awaiting
  | returned
  deriving DecidableEq

/-- Where a call stands. -/
inductive CallPc where
  | idle
  | sweeping (cause : CancelAllCause)
  | returned
  deriving DecidableEq

/-- What a segment shows. -/
inductive RaceEvent (ι : Type*) where
  /-- The re-arm passed its first checks and awaits the reconciler. -/
  | reArmBegan
  /-- The re-arm was refused before it awaited anything. -/
  | reArmRefused
  /-- The reconciler reported a count, or raised, and the re-arm returned. -/
  | reconciled (openOrders : Option ℤ)
  /-- A call ran its first segment, which reached the primitive or not. -/
  | started (call : ι) (reached : Bool)
  /-- A call's sweep answered or raised, and the call returned. -/
  | resumed (call : ι)

/-- The shared world and the program counters. -/
structure RaceState (ι κ : Type*) where
  world : SafetyWorld κ
  reArm : ReArmPc
  calls : ι → CallPc

variable {ι κ : Type*} [DecidableEq ι] [DecidableEq κ]

/-- Nothing has started. -/
def RaceState.start (world : SafetyWorld κ) : RaceState ι κ := ⟨world, .idle, fun _ => .idle⟩

/-- The re-arm has returned and no call is in flight. -/
def RaceState.Finished (s : RaceState ι κ) : Prop :=
  s.reArm = .returned ∧ ∀ i cause, s.calls i ≠ .sweeping cause

/-- One segment of the re-arm or of a call. -/
inductive RaceStep (calls : ι → SafetyCall κ) (operatorAuthorized : Bool)
    (risk : Option RiskAccumulator) : RaceState ι κ → RaceEvent ι → RaceState ι κ → Prop
  | reArmRefuse {s : RaceState ι κ} {e : PyExc} (hidle : s.reArm = .idle)
      (henter : reArmEnter operatorAuthorized risk = .error e) :
      RaceStep calls operatorAuthorized risk s .reArmRefused { s with reArm := .returned }
  | reArmBegin {s : RaceState ι κ} (hidle : s.reArm = .idle)
      (henter : reArmEnter operatorAuthorized risk = .ok ()) :
      RaceStep calls operatorAuthorized risk s .reArmBegan { s with reArm := .awaiting }
  | reconcilerRaise {s : RaceState ι κ} (hawait : s.reArm = .awaiting) :
      RaceStep calls operatorAuthorized risk s (.reconciled none) { s with reArm := .returned }
  | reArmDeny {s : RaceState ι κ} {openOrders : ℤ} {e : PyExc} (hawait : s.reArm = .awaiting)
      (hfinish : reArmFinish openOrders s.world.session = .error e) :
      RaceStep calls operatorAuthorized risk s (.reconciled (some openOrders))
        { s with reArm := .returned }
  | reArmClear {s : RaceState ι κ} {openOrders : ℤ} {session : DustSafetySession}
      (hawait : s.reArm = .awaiting)
      (hfinish : reArmFinish openOrders s.world.session = .ok session) :
      RaceStep calls operatorAuthorized risk s (.reconciled (some openOrders))
        { s with world := { s.world with session := session }, reArm := .returned }
  | callEnd {s : RaceState ι κ} (recvTs : ℤ) {i : ι} {ack : Option CancelAllAck}
      {world : SafetyWorld κ} (hidle : s.calls i = .idle)
      (henter : enterCall recvTs (calls i) s.world = .ended ack world) :
      RaceStep calls operatorAuthorized risk s (.started i ((calls i).reaches s.world))
        { s with world := world, calls := Function.update s.calls i .returned }
  | callSweep {s : RaceState ι κ} (recvTs : ℤ) {i : ι} {cause : CancelAllCause}
      {world : SafetyWorld κ} (hidle : s.calls i = .idle)
      (henter : enterCall recvTs (calls i) s.world = .sweeping cause world) :
      RaceStep calls operatorAuthorized risk s (.started i ((calls i).reaches s.world))
        { s with world := world, calls := Function.update s.calls i (.sweeping cause) }
  | sweepReturn {s : RaceState ι κ} (recvTs canceledCount : ℤ) {i : ι} {cause : CancelAllCause}
      (hsweep : s.calls i = .sweeping cause) :
      RaceStep calls operatorAuthorized risk s (.resumed i)
        { s with
          world := { s.world with
            session := (cancelAllAndBlockFinish recvTs cause canceledCount s.world.session).2 }
          calls := Function.update s.calls i .returned }
  | sweepRaise {s : RaceState ι κ} {i : ι} {cause : CancelAllCause}
      (hsweep : s.calls i = .sweeping cause) :
      RaceStep calls operatorAuthorized risk s (.resumed i)
        { s with calls := Function.update s.calls i .returned }

/-- The runs of the race. -/
abbrev RaceRun (calls : ι → SafetyCall κ) (operatorAuthorized : Bool)
    (risk : Option RiskAccumulator) :=
  Run (RaceStep calls operatorAuthorized risk)

/-! ## The block flag over a history -/

/-- What one event does to the block flag. -/
def RaceEvent.block (blocked : Bool) : RaceEvent ι → Bool
  | .started _ true => true
  | .reconciled (some 0) => false
  | _ => blocked

/-- Some trigger of the events reached the primitive. -/
def HasTrigger (events : List (RaceEvent ι)) : Prop := ∃ i, .started i true ∈ events

/-- The event is the reconciler's answer. -/
def RaceEvent.isReconciled : RaceEvent ι → Bool
  | .reconciled _ => true
  | _ => false

/-- The reconciler has not answered in these events. -/
def Unreconciled (events : List (RaceEvent ι)) : Prop := ∀ e ∈ events, e.isReconciled = false

section BlockFold

omit [DecidableEq ι]

variable {events : List (RaceEvent ι)} {b : Bool}

/-- While the reconciler is silent a block, or a trigger, sticks. -/
theorem block_of_unreconciled : ∀ {events : List (RaceEvent ι)} {b : Bool}, Unreconciled events →
    (events.foldl RaceEvent.block b = true ↔ b = true ∨ HasTrigger events)
  | [], b, _ => by simp [HasTrigger]
  | e :: events, b, h => by
    have hrest : Unreconciled events := fun e he => h e (List.mem_cons_of_mem _ he)
    rw [List.foldl_cons, block_of_unreconciled hrest]
    have he := h e List.mem_cons_self
    cases e with
    | reconciled n => simp [RaceEvent.isReconciled] at he
    | started i reached =>
      cases reached with
      | true => exact ⟨fun _ => .inr ⟨i, List.mem_cons_self⟩, fun _ => .inl rfl⟩
      | false => simp [RaceEvent.block, HasTrigger]
    | reArmBegan | reArmRefused | resumed i => simp [RaceEvent.block, HasTrigger]

theorem unreconciled_snoc {e : RaceEvent ι} (h : Unreconciled events)
    (he : e.isReconciled = false) : Unreconciled (events ++ [e]) := by
  intro e' he'
  rcases List.mem_append.mp he' with he' | he'
  · exact h e' he'
  · rw [List.mem_singleton.mp he']
    exact he

/-- A history is cut at the reconciler's only answer in one way. -/
theorem reconciled_split_unique {before before' after after' : List (RaceEvent ι)}
    {n n' : Option ℤ} (hbefore : Unreconciled before) (hafter : Unreconciled after)
    (h : before ++ .reconciled n :: after = before' ++ .reconciled n' :: after') :
    after = after' := by
  rcases List.append_eq_append_iff.mp h with ⟨mid, rfl, hmid⟩ | ⟨mid, rfl, hmid⟩
  · rcases mid with - | ⟨e, mid⟩
    · exact (List.cons.inj hmid).2
    · obtain ⟨-, rfl⟩ := List.cons.inj hmid
      have := hafter (.reconciled n') (by simp)
      simp [RaceEvent.isReconciled] at this
  · rcases mid with - | ⟨e, mid⟩
    · exact (List.cons.inj hmid).2.symm
    · obtain ⟨rfl, -⟩ := List.cons.inj hmid
      have := hbefore (.reconciled n') (by simp)
      simp [RaceEvent.isReconciled] at this

end BlockFold

section Race

variable {calls : ι → SafetyCall κ} {operatorAuthorized : Bool} {risk : Option RiskAccumulator}
  {world : SafetyWorld κ} {events : List (RaceEvent ι)} {s s' : RaceState ι κ}
  {event : RaceEvent ι}

/-- **One segment** moves the block flag as its event says. -/
theorem RaceStep.blocked_eq (h : RaceStep calls operatorAuthorized risk s event s') :
    s'.world.session.submitBlocked = event.block s.world.session.submitBlocked := by
  cases h with
  | reArmRefuse | reArmBegin | reconcilerRaise | sweepRaise => rfl
  | sweepReturn => exact cancelAllAndBlockFinish_blocked _
  | @reArmDeny openOrders e hawait hfinish =>
    have hne : openOrders ≠ 0 := fun h0 => by
      rw [reArmFinish_ok.mpr ⟨h0, rfl⟩] at hfinish
      cases hfinish
    unfold RaceEvent.block
    split
    · simp_all
    · simp_all
    · rfl
  | reArmClear hawait hfinish =>
    obtain ⟨rfl, rfl⟩ := reArmFinish_ok.mp hfinish
    rfl
  | @callEnd recvTs i ack world hidle henter =>
    have hspec := enterCall_spec recvTs (calls i) s.world
    rw [henter] at hspec
    cases hspec with
    | aside _ hreach hsession =>
      rw [hreach]
      exact congrArg DustSafetySession.submitBlocked hsession
    | noop _ _ hreach hblocked hblocked' hlast hack =>
      rw [hreach]
      exact hblocked'
  | @callSweep recvTs i cause world hidle henter =>
    have hspec := enterCall_spec recvTs (calls i) s.world
    rw [henter] at hspec
    cases hspec with
    | sweeping _ _ hreach hopen hblocked' hlast =>
      rw [hreach]
      exact hblocked'

/-- **The block flag is the last word of the history.** -/
theorem RaceRun.blocked_eq (h : RaceRun calls operatorAuthorized risk (.start world) events s) :
    s.world.session.submitBlocked =
      events.foldl RaceEvent.block world.session.submitBlocked := by
  refine Run.invariant (fun events s => s.world.session.submitBlocked =
    events.foldl RaceEvent.block world.session.submitBlocked) h rfl ?_
  intro ls l t u ih hstep
  rw [List.foldl_append, hstep.blocked_eq, ih]
  rfl

/-- The reconciler answers an awaiting re-arm, which returns; no segment takes that back. -/
theorem RaceStep.reArm_cases (h : RaceStep calls operatorAuthorized risk s event s') :
    (event.isReconciled = true ∧ s.reArm = .awaiting) ∨
      (event.isReconciled = false ∧ (s.reArm = .returned → s'.reArm = .returned)) := by
  cases h with
  | reconcilerRaise hawait | reArmDeny hawait | reArmClear hawait => exact .inl ⟨rfl, hawait⟩
  | reArmRefuse | reArmBegin hidle => exact .inr ⟨rfl, fun hr => by simp_all⟩
  | callEnd | callSweep | sweepReturn | sweepRaise => exact .inr ⟨rfl, id⟩

/-- **The reconciler answers at most once.** -/
theorem RaceRun.reconciled_once
    (h : RaceRun calls operatorAuthorized risk (.start world) events s) :
    (s.reArm ≠ .returned → Unreconciled events) ∧
      ∀ before n after, events = before ++ .reconciled n :: after →
        Unreconciled before ∧ Unreconciled after := by
  refine Run.invariant (fun events s => (s.reArm ≠ .returned → Unreconciled events) ∧
    ∀ before n after, events = before ++ .reconciled n :: after →
      Unreconciled before ∧ Unreconciled after) h ?_ ?_
  · exact ⟨fun _ e he => by simp at he, fun before n after he => by simp at he⟩
  · rintro ls l t u ⟨hopen, hsplit⟩ hstep
    rcases hstep.reArm_cases with ⟨hl, hawait⟩ | ⟨hl, hkeep⟩
    · -- the answer itself: nothing was answered before
      have hls : Unreconciled ls := hopen (by simp [hawait])
      refine ⟨fun hne => ?_, fun before n after he => ?_⟩
      · cases hstep <;> simp_all [RaceEvent.isReconciled]
      · rcases List.eq_nil_or_concat after with rfl | ⟨after, e, rfl⟩
        · obtain ⟨rfl, -⟩ := List.append_inj' he rfl
          exact ⟨hls, fun e he => by simp at he⟩
        · rw [List.concat_eq_append, ← List.cons_append, ← List.append_assoc] at he
          obtain ⟨rfl, -⟩ := List.append_inj' he rfl
          have := hls (.reconciled n) (by simp)
          simp [RaceEvent.isReconciled] at this
    · refine ⟨fun hne => unreconciled_snoc (hopen fun hr => hne (hkeep hr)) hl,
        fun before n after he => ?_⟩
      rcases List.eq_nil_or_concat after with rfl | ⟨after, e, rfl⟩
      · obtain ⟨-, he⟩ := List.append_inj' he rfl
        simp only [List.cons.injEq, and_true] at he
        simp [he, RaceEvent.isReconciled] at hl
      · rw [List.concat_eq_append, ← List.cons_append, ← List.append_assoc] at he
        obtain ⟨hls, he⟩ := List.append_inj' he rfl
        obtain ⟨hbefore, hafter⟩ := hsplit before n after hls
        obtain rfl : l = e := by simpa using he
        exact ⟨hbefore, by simpa using unreconciled_snoc hafter hl⟩

/-! ## Triggers in the window -/

/-- Some trigger reached the primitive after the re-arm began and before it returned. -/
def TriggeredInWindow (events : List (RaceEvent ι)) : Prop :=
  ∃ before window n after, events =
    before ++ .reArmBegan :: (window ++ .reconciled n :: after) ∧ HasTrigger window

/-- The reconciler reported no open order. -/
def EmptyBookReported (events : List (RaceEvent ι)) : Prop := .reconciled (some 0) ∈ events

/-- Some trigger reached the primitive after the reconciler reported no open order. -/
def TriggeredAfterClear (events : List (RaceEvent ι)) : Prop :=
  ∃ before after, events = before ++ .reconciled (some 0) :: after ∧ HasTrigger after

/-- **A trigger of the window is kept exactly when** the reconciler does not report an empty book,
or a later trigger blocks the session again. So it is in every state after the re-arm has
returned, the one where all calls have finished included. -/
theorem trigger_kept_iff (h : RaceRun calls operatorAuthorized risk (.start world) events s) :
    (TriggeredInWindow events → s.world.session.submitBlocked = true) ↔
      (TriggeredInWindow events → ¬ EmptyBookReported events ∨ TriggeredAfterClear events) := by
  have hblocked := h.blocked_eq
  obtain ⟨-, hsplit⟩ := h.reconciled_once
  refine forall_congr' fun hwin => ?_
  obtain ⟨before, window, n, after, hev, i, hi⟩ := hwin
  have hev' : events = (before ++ .reArmBegan :: window) ++ .reconciled n :: after := by
    simpa using hev
  obtain ⟨hpre, hpost⟩ := hsplit _ n after hev'
  have hcut : (before ++ .reArmBegan :: window).foldl RaceEvent.block
      world.session.submitBlocked = true :=
    (block_of_unreconciled hpre).mpr (.inr ⟨i, by simp [hi]⟩)
  rw [hblocked, hev', List.foldl_append, hcut, List.foldl_cons, block_of_unreconciled hpost]
  by_cases hn : n = some 0
  · subst hn
    simp only [RaceEvent.block, Bool.false_eq_true, false_or]
    constructor
    · exact fun ht => .inr ⟨_, after, rfl, ht⟩
    · rintro (hne | ⟨before', after', he, ht⟩)
      · exact absurd (by simp [EmptyBookReported]) hne
      · exact reconciled_split_unique hpre hpost he ▸ ht
  · have hblock : (RaceEvent.reconciled n : RaceEvent ι).block true = true := by
      unfold RaceEvent.block
      split <;> simp_all
    refine iff_of_true (.inl hblock) (.inl fun hbook => ?_)
    rcases List.mem_append.mp hbook with hm | hm
    · have := hpre _ hm
      simp [RaceEvent.isReconciled] at this
    · rcases List.mem_cons.mp hm with heq | hm
      · exact hn (by simpa using heq.symm)
      · have := hpost _ hm
        simp [RaceEvent.isReconciled] at this

end Race

/-! ### A lost trigger -/

/-- A session stopped by its breaker, and its accumulator. -/
def stoppedWorld : SafetyWorld Unit :=
  ⟨{ sessionId := "s", submitBlocked := true, blockCause := some .breaker }, fun _ => .new "s"⟩

/-- The re-arm awaits the reconciler, the kill switch is engaged, and the reconciler reports an
empty book. -/
def lostTrigger : List (RaceEvent Unit) :=
  [.reArmBegan, .started () true, .reconciled (some 0)]

/-- Where that leaves the race. -/
def afterLostTrigger : RaceState Unit Unit :=
  { world := { stoppedWorld with session :=
      { stoppedWorld.session with submitBlocked := false, blockCause := none, nextSeq := 1 } }
    reArm := .returned
    calls := Function.update (fun _ => .idle) () .returned }

theorem run_lostTrigger : RaceRun (fun _ : Unit => SafetyCall.onKillSwitch) true
    (some (.new "s")) (.start stoppedWorld) lostTrigger afterLostTrigger := by
  have hbegin : RaceStep (fun _ : Unit => SafetyCall.onKillSwitch) true (some (.new "s"))
      (.start stoppedWorld) .reArmBegan ⟨stoppedWorld, .awaiting, fun _ => .idle⟩ :=
    .reArmBegin rfl rfl
  have hengage : RaceStep (fun _ : Unit => SafetyCall.onKillSwitch) true (some (.new "s"))
      ⟨stoppedWorld, .awaiting, fun _ => .idle⟩ (.started () true)
      ⟨{ stoppedWorld with session := { stoppedWorld.session with nextSeq := 1 } }, .awaiting,
        Function.update (fun _ => .idle) () .returned⟩ :=
    .callEnd 1 rfl rfl
  exact (((Run.nil).snoc hbegin).snoc hengage).snoc (.reArmClear rfl rfl)

theorem trigger_kept_iff_lostTrigger :
    (TriggeredInWindow lostTrigger → afterLostTrigger.world.session.submitBlocked = true) ↔
      (TriggeredInWindow lostTrigger →
        ¬ EmptyBookReported lostTrigger ∨ TriggeredAfterClear lostTrigger) :=
  trigger_kept_iff run_lostTrigger

/-- **A kill switch engaged while a re-arm awaits its reconciler is lost.** -/
theorem trigger_lost :
    RaceRun (fun _ : Unit => SafetyCall.onKillSwitch) true (some (.new "s"))
        (.start stoppedWorld) lostTrigger afterLostTrigger ∧
      afterLostTrigger.Finished ∧ TriggeredInWindow lostTrigger ∧
      afterLostTrigger.world.session.submitBlocked = false := by
  refine ⟨run_lostTrigger, ⟨rfl, fun i cause => by simp [afterLostTrigger]⟩, ?_, rfl⟩
  exact ⟨[], [.started () true], some 0, [], rfl, (), by simp⟩

end Veridex.DustExecution
