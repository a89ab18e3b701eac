import Veridex.DustExecution.Emergency

/-!
# Sequences of safety operations (`dust_execution/emergency.py`)

Any operations of `SafetyController`, one after the other, on one session: triggers, realized
fills folded into any accumulators, and re-arms, with sweeps and reconcilers that answer or raise.
`performOp` runs one operation to its end and shows what it did; `runOps` runs a sequence.

`AcksGenuine` reads the events alone: every ack handed out carries the count of a sweep that
completed since the session last became blocked.

Results: `performOp_spec` (one operation), `acks_genuine_iff` (a run), `retry_after_raised_sweep_acks`.
-/

namespace Veridex.DustExecution

open Veridex.Py Veridex.Policy

variable {κ : Type*}

/-- A call that can reach the cancel-all primitive. A fill names the accumulator it is folded
into. -/
inductive SafetyCall (κ : Type*) where
  | cancelAllAndBlock (cause : CancelAllCause)
  | onBreakerOpen
  | onKillSwitch
  | onLossBreach
  | onRealizedFill (fill : FillSource) (risk : κ) (envelope : PolicyEnvelope)

/-- The session and the accumulators the calls share. -/
structure SafetyWorld (κ : Type*) where
  session : DustSafetySession
  risk : κ → RiskAccumulator

/-- Where a call stands at its first await, or how it ended before it. -/
inductive CallEntry (κ : Type*) where
  | ended (ack : Option CancelAllAck) (world : SafetyWorld κ)
  | sweeping (cause : CancelAllCause) (world : SafetyWorld κ)

/-- The entry of a trigger, in the world it leaves. -/
def CallEntry.ofSweep (cause : CancelAllCause) (risk : κ → RiskAccumulator) :
    CancelAllEntry → CallEntry κ
  | .noop ack session => .ended (some ack) ⟨session, risk⟩
  | .sweeping session => .sweeping cause ⟨session, risk⟩

/-- What the first segment of a call may do in a world: leave the session alone when the call does
not reach the primitive; else answer at once on a blocked session, or block it and owe the
sweep. -/
inductive EntrySpec (w : SafetyWorld κ) (reaches : Bool) : CallEntry κ → Prop
  | aside (w' : SafetyWorld κ) (hreach : reaches = false) (hsession : w'.session = w.session) :
      EntrySpec w reaches (.ended none w')
  | noop (ack : CancelAllAck) (w' : SafetyWorld κ) (hreach : reaches = true)
      (hblocked : w.session.submitBlocked = true) (hblocked' : w'.session.submitBlocked = true)
      (hlast : w'.session.lastCancelAllAck = w.session.lastCancelAllAck)
      (hack : w.session.lastCancelAllAck = some ack ∨
        (w.session.lastCancelAllAck = none ∧ ack.canceledCount = 0)) :
      EntrySpec w reaches (.ended (some ack) w')
  | sweeping (cause : CancelAllCause) (w' : SafetyWorld κ) (hreach : reaches = true)
      (hopen : w.session.submitBlocked = false) (hblocked' : w'.session.submitBlocked = true)
      (hlast : w'.session.lastCancelAllAck = w.session.lastCancelAllAck) :
      EntrySpec w reaches (.sweeping cause w')

theorem entrySpec_ofSweep (recvTs : ℤ) (cause : CancelAllCause) (risk : κ → RiskAccumulator)
    (w : SafetyWorld κ) :
    EntrySpec w true (.ofSweep cause risk (cancelAllAndBlockEnter recvTs cause w.session)) := by
  rcases cancelAllAndBlockEnter_cases recvTs cause w.session
    with ⟨ack, session', he, hb, hb', hl, hack⟩ | ⟨session', he, hb, hb', hl⟩
  · rw [he]
    exact .noop ack _ rfl hb hb' hl hack
  · rw [he]
    exact .sweeping cause _ rfl hb hb' hl

variable [DecidableEq κ]

/-- The first segment of a call. -/
def enterCall (recvTs : ℤ) (call : SafetyCall κ) (w : SafetyWorld κ) : CallEntry κ :=
  match call with
  | .cancelAllAndBlock cause =>
    .ofSweep cause w.risk (cancelAllAndBlockEnter recvTs cause w.session)
  | .onBreakerOpen => .ofSweep .breaker w.risk (onBreakerOpenEnter recvTs w.session)
  | .onKillSwitch => .ofSweep .killSwitch w.risk (onKillSwitchEnter recvTs w.session)
  | .onLossBreach => .ofSweep .lossBreach w.risk (onLossBreachEnter recvTs w.session)
  | .onRealizedFill fill i envelope =>
    match onRealizedFillEnter recvTs fill (w.risk i) envelope w.session with
    | .error _ => .ended none w
    | .ok (risk, none) => .ended none ⟨w.session, Function.update w.risk i risk⟩
    | .ok (risk, some entry) => .ofSweep .lossBreach (Function.update w.risk i risk) entry

/-- The call reaches `cancel_all_and_block`: a trigger always does, a fill when it breaches. -/
def SafetyCall.reaches (call : SafetyCall κ) (w : SafetyWorld κ) : Bool :=
  match call with
  | .onRealizedFill fill i envelope =>
    match (w.risk i).applyRealizedFill fill with
    | .ok risk => risk.breachesCaps envelope
    | .error _ => false
  | _ => true

/-- **The first segment of a call.** -/
theorem enterCall_spec (recvTs : ℤ) (call : SafetyCall κ) (w : SafetyWorld κ) :
    EntrySpec w (call.reaches w) (enterCall recvTs call w) := by
  cases call with
  | cancelAllAndBlock cause => exact entrySpec_ofSweep recvTs cause w.risk w
  | onBreakerOpen => exact entrySpec_ofSweep recvTs .breaker w.risk w
  | onKillSwitch => exact entrySpec_ofSweep recvTs .killSwitch w.risk w
  | onLossBreach => exact entrySpec_ofSweep recvTs .lossBreach w.risk w
  | onRealizedFill fill i envelope =>
    simp only [enterCall, SafetyCall.reaches, onRealizedFillEnter]
    cases happly : (w.risk i).applyRealizedFill fill with
    | error e => exact .aside w rfl rfl
    | ok risk =>
      simp only [bind, Except.bind, pure, Except.pure]
      cases hbreach : risk.breachesCaps envelope with
      | false => exact .aside _ rfl rfl
      | true => exact entrySpec_ofSweep recvTs .lossBreach _ w

/-! ## Operations -/

/-- One operation, with the answers its awaits get and the clock's readings. -/
inductive SafetyOp (κ : Type*) where
  | call (call : SafetyCall κ) (sweep : Except PyExc ℤ) (recvTs recvTs' : ℤ)
  | reArm (operatorAuthorized : Bool) (risk : Option RiskAccumulator)
      (openOrders : Except PyExc ℤ)

/-- What an operation shows. -/
inductive SafetyEvent where
  | blocked
  | swept (canceledCount : ℤ)
  | sweepRaised
  | cleared
  | acked (ack : CancelAllAck)
  deriving DecidableEq

/-- One operation, run to its end. -/
def performOp (op : SafetyOp κ) (w : SafetyWorld κ) : List SafetyEvent × SafetyWorld κ :=
  match op with
  | .call call sweep recvTs recvTs' =>
    match enterCall recvTs call w with
    | .ended none w => ([], w)
    | .ended (some ack) w => ([.acked ack], w)
    | .sweeping cause w =>
      match sweep with
      | .error _ => ([.blocked, .sweepRaised], w)
      | .ok n =>
        let (ack, session) := cancelAllAndBlockFinish recvTs' cause n w.session
        ([.blocked, .swept n, .acked ack], { w with session := session })
  | .reArm operatorAuthorized risk openOrders =>
    let cleared : Except PyExc DustSafetySession := do
      reArmEnter operatorAuthorized risk
      let openOrders ← openOrders
      reArmFinish openOrders w.session
    match cleared with
    | .error _ => ([], w)
    | .ok session => ([.cleared], { w with session := session })

/-- A sequence of operations. -/
def runOps : List (SafetyOp κ) → SafetyWorld κ → List SafetyEvent × SafetyWorld κ
  | [], w => ([], w)
  | op :: ops, w =>
    let (events, w) := performOp op w
    let (rest, w) := runOps ops w
    (events ++ rest, w)

/-- The counts of the sweeps completed since the session last became blocked, `since` being those
before the events. -/
def sweptFrom (since : List ℤ) (events : List SafetyEvent) : List ℤ :=
  events.foldl (fun since event => match event with
    | .blocked => []
    | .swept n => since ++ [n]
    | _ => since) since

/-- Every ack handed out carries the count of a sweep completed since the last block. -/
def AcksGenuineFrom (since : List ℤ) (events : List SafetyEvent) : Prop :=
  ∀ before ack after, events = before ++ .acked ack :: after →
    ack.canceledCount ∈ sweptFrom since before

def AcksGenuine (events : List SafetyEvent) : Prop := AcksGenuineFrom [] events

/-- The session is blocked and has no ack on record: its sweep never completed. -/
def SweepOwed (session : DustSafetySession) : Prop :=
  session.submitBlocked = true ∧ session.lastCancelAllAck = none

/-- The operation does not reach the primitive while a sweep is owed. -/
def SafetyOp.Settled (op : SafetyOp κ) (w : SafetyWorld κ) : Prop :=
  match op with
  | .call trigger .. => trigger.reaches w = true → ¬ SweepOwed w.session
  | .reArm .. => True

/-- No operation of the run reaches the primitive while a sweep is owed. -/
def RunSettled : List (SafetyOp κ) → SafetyWorld κ → Prop
  | [], _ => True
  | op :: ops, w => op.Settled w ∧ RunSettled ops (performOp op w).2

theorem sweptFrom_append (since : List ℤ) (es es' : List SafetyEvent) :
    sweptFrom since (es ++ es') = sweptFrom (sweptFrom since es) es' := by
  simp [sweptFrom, List.foldl_append]

theorem acksGenuineFrom_nil (since : List ℤ) : AcksGenuineFrom since [] := by
  intro before ack after h
  simp at h

theorem acksGenuineFrom_append {since : List ℤ} {es es' : List SafetyEvent} :
    AcksGenuineFrom since (es ++ es') ↔
      AcksGenuineFrom since es ∧ AcksGenuineFrom (sweptFrom since es) es' := by
  constructor
  · intro h
    refine ⟨fun before ack after he => ?_, fun before ack after he => ?_⟩
    · exact h before ack (after ++ es') (by rw [he]; simp)
    · rw [← sweptFrom_append]
      exact h (es ++ before) ack after (by rw [he]; simp)
  · rintro ⟨h, h'⟩ before ack after he
    rcases List.append_eq_append_iff.mp he with ⟨mid, hbefore, hes'⟩ | ⟨mid, hes, hrest⟩
    · rw [hbefore, sweptFrom_append]
      exact h' mid ack after hes'
    · cases mid with
      | nil =>
        rw [List.append_nil] at hes
        have := h' [] ack after (by simpa using hrest.symm)
        rw [hes] at this
        exact this
      | cons e mid =>
        rw [List.cons_append] at hrest
        obtain ⟨rfl, -⟩ := List.cons.inj hrest
        exact h before ack mid hes

theorem acksGenuineFrom_singleton {since : List ℤ} {ack : CancelAllAck} :
    AcksGenuineFrom since [.acked ack] ↔ ack.canceledCount ∈ since := by
  constructor
  · intro h
    exact h [] ack [] rfl
  · intro h before ack' after he
    rcases before with - | ⟨e, before⟩
    · simp only [List.nil_append, List.cons.injEq, SafetyEvent.acked.injEq] at he
      obtain ⟨rfl, -⟩ := he
      exact h
    · simp at he

theorem acksGenuineFrom_cleared (since : List ℤ) : AcksGenuineFrom since [.cleared] := by
  intro before ack after he
  rcases before with - | ⟨e, before⟩ <;> simp at he

/-- What the events shown so far say about the session. -/
structure SweepsRecorded (since : List ℤ) (session : DustSafetySession) : Prop where
  recorded : session.submitBlocked = true →
    since = (session.lastCancelAllAck.map CancelAllAck.canceledCount).toList
  cleared : session.submitBlocked = false → session.lastCancelAllAck = none

/-- **One operation** keeps the record, and hands out only genuine acks exactly when it is
settled. -/
theorem performOp_spec {since : List ℤ} {op : SafetyOp κ} {w : SafetyWorld κ}
    (h : SweepsRecorded since w.session) :
    SweepsRecorded (sweptFrom since (performOp op w).1) (performOp op w).2.session ∧
      (AcksGenuineFrom since (performOp op w).1 ↔ op.Settled w) := by
  cases op with
  | reArm operatorAuthorized risk openOrders =>
    simp only [performOp, SafetyOp.Settled, iff_true]
    split
    · exact ⟨h, acksGenuineFrom_nil since⟩
    · rename_i session hclear
      refine ⟨?_, acksGenuineFrom_cleared since⟩
      cases hauth : reArmEnter operatorAuthorized risk with
      | error e => simp [hauth, bind, Except.bind] at hclear
      | ok u =>
        cases openOrders with
        | error e => simp [hauth, bind, Except.bind] at hclear
        | ok n =>
          simp only [hauth, bind, Except.bind] at hclear
          obtain ⟨-, rfl⟩ := reArmFinish_ok.mp hclear
          exact ⟨by simp, by simp⟩
  | call call sweep recvTs recvTs' =>
    have hspec := enterCall_spec recvTs call w
    simp only [performOp, SafetyOp.Settled]
    generalize enterCall recvTs call w = entry at hspec ⊢
    cases hspec with
    | aside w' hreach hsession =>
      simp only [hreach]
      exact ⟨hsession ▸ h, by simp [acksGenuineFrom_nil]⟩
    | noop ack w' hreach hblocked hblocked' hlast hack =>
      -- the ack is the recorded one, or made up
      have hsince := h.recorded hblocked
      refine ⟨⟨fun _ => ?_, fun hf => by simp [hblocked'] at hf⟩, ?_⟩
      · rw [hlast]
        exact hsince
      · simp only [hreach, true_implies]
        rw [acksGenuineFrom_singleton, hsince]
        rcases hack with hack | ⟨hnone, -⟩
        · simp [SweepOwed, hack]
        · simp [SweepOwed, hnone, hblocked]
    | sweeping cause w' hreach hopen hblocked' hlast =>
      -- the session was open, so nothing is owed
      have howed : ¬ SweepOwed w.session := by simp [SweepOwed, hopen]
      have hnone : w'.session.lastCancelAllAck = none := hlast.trans (h.cleared hopen)
      simp only [hreach, true_implies, howed, not_false_eq_true, iff_true]
      cases sweep with
      | error e =>
        refine ⟨⟨fun _ => by simp [sweptFrom, hnone], fun hf => by simp [hblocked'] at hf⟩, ?_⟩
        intro before ack after hev
        rcases before with - | ⟨e₁, - | ⟨e₂, before⟩⟩ <;> simp at hev
      | ok n =>
        refine ⟨⟨fun _ => by simp [sweptFrom], fun hf => by simp [hblocked'] at hf⟩, ?_⟩
        intro before ack after hev
        rcases before with - | ⟨e₁, - | ⟨e₂, - | ⟨e₃, before⟩⟩⟩ <;> simp at hev
        obtain ⟨rfl, rfl, rfl, -⟩ := hev
        simp [sweptFrom]

theorem acksGenuineFrom_runOps_iff : ∀ {ops : List (SafetyOp κ)} {since : List ℤ}
    {w : SafetyWorld κ}, SweepsRecorded since w.session →
    (AcksGenuineFrom since (runOps ops w).1 ↔ RunSettled ops w)
  | [], since, _, _ => by simp [runOps, RunSettled, acksGenuineFrom_nil]
  | op :: ops, since, w, h => by
    obtain ⟨hrec, hop⟩ : SweepsRecorded (sweptFrom since (performOp op w).1)
        (performOp op w).2.session ∧ _ := performOp_spec h
    have hrest : _ ↔ RunSettled ops (performOp op w).2 := acksGenuineFrom_runOps_iff hrec
    simp only [runOps, RunSettled]
    rw [acksGenuineFrom_append, hop, hrest]

/-- **The acks of a run on a fresh session are genuine exactly when** no operation reaches the
primitive while a sweep is owed. -/
theorem acks_genuine_iff (sessionId : String) (risk : κ → RiskAccumulator)
    (ops : List (SafetyOp κ)) :
    AcksGenuine (runOps ops ⟨{ sessionId }, risk⟩).1 ↔
      RunSettled ops ⟨{ sessionId }, risk⟩ :=
  acksGenuineFrom_runOps_iff ⟨by simp, by simp⟩

/-- A kill switch whose sweep raises, engaged again. -/
theorem retry_after_raised_sweep_acks :
    let ops : List (SafetyOp Unit) :=
      [.call .onKillSwitch (.error ⟨.exception, "cancel-all timed out"⟩) 1 2,
        .call .onKillSwitch (.ok 3) 3 4]
    let events := (runOps ops ⟨{ sessionId := "s" }, fun _ => .new "s"⟩).1
    events = [.blocked, .sweepRaised, .acked ⟨1, 3, .killSwitch, 0⟩] ∧ ¬ AcksGenuine events := by
  refine ⟨rfl, fun h => ?_⟩
  have := h [.blocked, .sweepRaised] _ [] rfl
  simp [sweptFrom] at this

end Veridex.DustExecution
