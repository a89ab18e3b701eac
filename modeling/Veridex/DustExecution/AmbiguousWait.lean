import Veridex.DustExecution.RunGates

/-!
# Waiting on an ambiguous submit (`resolve_ambiguous_submit`, reconcile.py)

A loop without a bound of its own: it asks for the verdict again and again, and leaves when a verdict
lifts the freeze or the clock says that the time is up. Then it sweeps. The loop is modelled with fuel,
which runs out as `none`.

The clock, the sleep and the poll are injected. What they answer may depend on all that was asked of
them before, which `WaitCall` records. The poll and the sweep act on the lane, whose calls and safety
session are those of a run.

Results: `resolveAmbiguousSubmit_settles`.
-/

namespace Veridex.DustExecution

open Veridex.Py Veridex.Lib

/-! ## The wait -/

/-- `reconcile_uncertain_submit`. -/
def reconcileUncertainSubmit (adapter : Adapter) (presubmitRecord : PreSubmitRecord) :
    Lane UncertainSubmitState := do
  let verdict ← assessUncertainSubmit adapter presubmitRecord
  return verdict.state

/-- A call of an injected callable, with its answer. -/
inductive WaitCall where
  | clockMs (reading : ℤ)
  | poll (answer : Except PyExc UncertainSubmitState)
  | sleep (seconds : ℚ)
  | cancelAllAndBlock (cause : CancelAllCause) (answer : Except PyExc CancelAllAck)

/-- The lane, and what the loop has asked. -/
structure WaitWorld where
  waits : List WaitCall
  lane : World

/-- A computation of the loop. -/
abbrev Wait (α : Type) : Type := Prog WaitWorld PyExc α

/-- `UncertainPoll`. -/
abbrev UncertainPoll : Type := List WaitCall → Lane UncertainSubmitState

/-- `AmbiguousOutcome`. -/
inductive AmbiguousOutcome where
  | resolved
  | definitivelyAbsent
  | sweptOnTimeout
  deriving DecidableEq, Repr

/-- `AmbiguousResolution`. -/
structure AmbiguousResolution where
  outcome : AmbiguousOutcome
  polls : ℕ
  resolvedState : UncertainSubmitState
  cancelAllAck : Option CancelAllAck
  elapsedMs : ℤ
  deriving DecidableEq, Repr

/-- The outcome of a verdict that lifts the freeze. -/
def UncertainSubmitState.lifts : UncertainSubmitState → Option AmbiguousOutcome
  | .resolved => some .resolved
  | .definitivelyAbsent => some .definitivelyAbsent
  | .ambiguous => none

/-- The arguments of `resolve_ambiguous_submit`. The adapter and the controller's clock are among the
seams; `cancelAdapter` is the venue's sweep. -/
structure WaitInputs where
  presubmitRecord : PreSubmitRecord
  seams : Seams
  cancelAdapter : Surface Unit ℤ
  clockMs : List WaitCall → ℤ
  pollIntervalMs : ℤ
  timeoutMs : ℤ
  timeoutCause : CancelAllCause := .reconciliationTimeout
  pollFn : Option UncertainPoll := none

/-- A call of the lane, recorded whether it returns or raises. -/
def recorded {α : Type} (m : List WaitCall → Lane α) (entry : Except PyExc α → WaitCall) : Wait α :=
  ExceptT.mk fun w =>
    let (answer, lane) := (m w.waits).exec w.lane
    (answer, ⟨w.waits ++ [entry answer], lane⟩)

/-- `clock_ms()`. -/
def readClock (clockMs : List WaitCall → ℤ) : Wait ℤ := do
  let w ← get
  modify fun w => { w with waits := w.waits ++ [.clockMs (clockMs w.waits)] }
  return clockMs w.waits

/-- `sleep(seconds)`. -/
def sleep (seconds : ℚ) : Wait Unit :=
  modify fun w => { w with waits := w.waits ++ [.sleep seconds] }

namespace WaitInputs

variable (inputs : WaitInputs)

/-- `poll`. -/
def poll : UncertainPoll :=
  inputs.pollFn.getD fun _ => reconcileUncertainSubmit inputs.seams.adapter inputs.presubmitRecord

/-- The sweep of a time-out. -/
def sweep : Wait CancelAllAck :=
  recorded (fun _ => cancelAllAndBlock inputs.seams inputs.timeoutCause inputs.cancelAdapter)
    (.cancelAllAndBlock inputs.timeoutCause)

/-- The `while True` of `resolve_ambiguous_submit`. -/
def loop (start : ℤ) : ℕ → ℕ → Wait (Option AmbiguousResolution)
  | 0, _ => return none
  | fuel + 1, polls => do
    let state ← recorded inputs.poll .poll
    let polls := polls + 1
    match state.lifts with
    | some outcome =>
      let now ← readClock inputs.clockMs
      return some ⟨outcome, polls, state, none, now - start⟩
    | none =>
      let now ← readClock inputs.clockMs
      if inputs.timeoutMs ≤ now - start then
        let ack ← inputs.sweep
        let now ← readClock inputs.clockMs
        return some ⟨.sweptOnTimeout, polls, .ambiguous, some ack, now - start⟩
      else
        sleep (inputs.pollIntervalMs / 1000)
        loop start fuel polls

end WaitInputs

/-- `resolve_ambiguous_submit`. -/
def resolveAmbiguousSubmit (inputs : WaitInputs) (fuel : ℕ) : Wait (Option AmbiguousResolution) := do
  let start ← readClock inputs.clockMs
  inputs.loop start fuel 0

/-! ## What is asked -/

/-- The verdict of a call, where it is a poll. -/
def WaitCall.verdict : WaitCall → Option (Except PyExc UncertainSubmitState)
  | .poll answer => some answer
  | _ => none

/-- What a call swept for, where it is a sweep. -/
def WaitCall.swept : WaitCall → Option (CancelAllCause × Except PyExc CancelAllAck)
  | .cancelAllAndBlock cause answer => some (cause, answer)
  | _ => none

/-- The verdicts, in order. -/
def verdictsIn (waits : List WaitCall) : List (Except PyExc UncertainSubmitState) :=
  waits.filterMap WaitCall.verdict

/-- The sweeps, in order. -/
def sweepsAsked (waits : List WaitCall) : List (CancelAllCause × Except PyExc CancelAllAck) :=
  waits.filterMap WaitCall.swept

@[simp] theorem verdictsIn_nil : verdictsIn [] = [] := rfl

@[simp] theorem verdictsIn_cons (call : WaitCall) (waits : List WaitCall) :
    verdictsIn (call :: waits) = call.verdict.toList ++ verdictsIn waits := by
  cases call <;> rfl

@[simp] theorem verdictsIn_append (waits waits' : List WaitCall) :
    verdictsIn (waits ++ waits') = verdictsIn waits ++ verdictsIn waits' := List.filterMap_append ..

@[simp] theorem sweepsAsked_nil : sweepsAsked [] = [] := rfl

@[simp] theorem sweepsAsked_cons (call : WaitCall) (waits : List WaitCall) :
    sweepsAsked (call :: waits) = call.swept.toList ++ sweepsAsked waits := by
  cases call <;> rfl

@[simp] theorem sweepsAsked_append (waits waits' : List WaitCall) :
    sweepsAsked (waits ++ waits') = sweepsAsked waits ++ sweepsAsked waits' := List.filterMap_append ..

/-- A clock that never runs back, and advances by the poll interval with each sleep. -/
structure WaitInputs.Advances (inputs : WaitInputs) : Prop where
  interval_pos : 0 < inputs.pollIntervalMs
  monotone : ∀ waits call, inputs.clockMs waits ≤ inputs.clockMs (waits ++ [call])
  sleeps : ∀ waits seconds,
    inputs.clockMs waits + inputs.pollIntervalMs ≤ inputs.clockMs (waits ++ [.sleep seconds])

/-- The most polls a wait can take: at least one. -/
def WaitInputs.pollBound (inputs : WaitInputs) : ℕ :=
  max 1 (⌈(inputs.timeoutMs : ℚ) / inputs.pollIntervalMs⌉ + 1).toNat

/-- No order is placed. -/
abbrev NoSubmit : World → World → Prop := Calls fun call => call.isSubmit = false

/-- How a wait ends, by its last verdict: the verdict is returned and nothing is swept, or there was
one sweep, after the time was up, and the session is blocked. What raises is raised on. -/
def WaitInputs.Ends (inputs : WaitInputs) (polls : ℕ) (w : WaitWorld)
    (r : Except PyExc (Option AmbiguousResolution)) : Except PyExc UncertainSubmitState → Prop
  | .error e => r = .error e ∧ sweepsAsked w.waits = []
  | .ok state =>
    match state.lifts with
    | some outcome => sweepsAsked w.waits = [] ∧
        ∃ elapsed, r = .ok (some ⟨outcome, polls, state, none, elapsed⟩)
    | none => ∃ answer, sweepsAsked w.waits = [(inputs.timeoutCause, answer)] ∧
        w.lane.session.submitBlocked = true ∧
        match answer with
        | .error e => r = .error e
        | .ok ack => ∃ elapsed, inputs.timeoutMs ≤ elapsed ∧
            r = .ok (some ⟨.sweptOnTimeout, polls, state, some ack, elapsed⟩)

/-- A wait from `w` has ended within its bound. -/
structure WaitInputs.Settles (inputs : WaitInputs) (w w' : WaitWorld)
    (r : Except PyExc (Option AmbiguousResolution)) : Prop where
  /-- All verdicts but the last are ambiguous. -/
  ends : ∃ earlier last, verdictsIn w'.waits = List.replicate earlier (.ok .ambiguous) ++ [last] ∧
    earlier + 1 ≤ inputs.pollBound ∧ inputs.Ends (earlier + 1) w' r last
  noSubmit : NoSubmit w.lane w'.lane

/-! ## The run -/

section Run

variable {inputs : WaitInputs} {w w' : WaitWorld} {r : Except PyExc (Option AmbiguousResolution)}

@[simp] theorem exec_recorded {α : Type} (m : List WaitCall → Lane α)
    (entry : Except PyExc α → WaitCall) (w : WaitWorld) :
    (recorded m entry).exec w =
      (((m w.waits).exec w.lane).1,
        ⟨w.waits ++ [entry ((m w.waits).exec w.lane).1], ((m w.waits).exec w.lane).2⟩) := rfl

@[simp] theorem exec_readClock (clockMs : List WaitCall → ℤ) (w : WaitWorld) :
    (readClock clockMs).exec w =
      (.ok (clockMs w.waits), { w with waits := w.waits ++ [.clockMs (clockMs w.waits)] }) := rfl

theorem exec_sleep (seconds : ℚ) (w : WaitWorld) :
    (sleep seconds).exec w = (.ok ⟨⟩, { w with waits := w.waits ++ [.sleep seconds] }) := rfl

/-- The default poll only reads. -/
theorem noSubmit_poll (hpoll : ∀ pollFn ∈ inputs.pollFn, ∀ waits, Prog.Keeps NoSubmit (pollFn waits))
    (waits : List WaitCall) : Prog.Keeps NoSubmit (inputs.poll waits) := by
  unfold WaitInputs.poll
  cases hfn : inputs.pollFn with
  | some pollFn => exact hpoll pollFn hfn waits
  | none =>
    refine Prog.keeps_bind ?_ fun verdict => Prog.keeps_pure _
    exact (quiet_assessUncertainSubmit _ _).mono fun _ _ h => h.harmless.1

/-- One more poll is within the bound, while the time is not up. -/
theorem WaitInputs.Advances.poll_again {polls : ℕ} {start now : ℤ} (h : inputs.Advances)
    (hspent : start + polls * inputs.pollIntervalMs ≤ now)
    (hleft : now - start < inputs.timeoutMs) : polls + 2 ≤ inputs.pollBound := by
  have hpos : (0 : ℚ) < inputs.pollIntervalMs := by exact_mod_cast h.interval_pos
  have hspent' : (polls : ℤ) * inputs.pollIntervalMs < inputs.timeoutMs := by omega
  have hratio : ((polls : ℤ) : ℚ) < (inputs.timeoutMs : ℚ) / inputs.pollIntervalMs := by
    rw [lt_div_iff₀ hpos]
    exact_mod_cast hspent'
  have hceil : (polls : ℤ) < ⌈(inputs.timeoutMs : ℚ) / inputs.pollIntervalMs⌉ := Int.lt_ceil.mpr hratio
  have hbound : polls + 2 ≤ (⌈(inputs.timeoutMs : ℚ) / inputs.pollIntervalMs⌉ + 1).toNat := by omega
  exact hbound.trans (le_max_right _ _)

/-- The head of the loop, after `polls` ambiguous verdicts. -/
structure WaitInputs.Waiting (inputs : WaitInputs) (start : ℤ) (polls : ℕ) (first w : WaitWorld) :
    Prop where
  verdicts : verdictsIn w.waits = List.replicate polls (.ok .ambiguous)
  sweeps : sweepsAsked w.waits = []
  /-- Each poll so far was slept after. -/
  spent : start + polls * inputs.pollIntervalMs ≤ inputs.clockMs w.waits
  within : polls + 1 ≤ inputs.pollBound
  noSubmit : NoSubmit first.lane w.lane

variable {start : ℤ} {polls : ℕ} {first : WaitWorld}

/-- A poll that lifts the freeze, or raises, ends the wait. -/
theorem WaitInputs.Waiting.settles_of_last (last : Except PyExc UncertainSubmitState)
    (h : inputs.Waiting start polls first w)
    (hverdicts : verdictsIn w'.waits = verdictsIn w.waits ++ [last])
    (hends : inputs.Ends (polls + 1) w' r last) (hlane : NoSubmit w.lane w'.lane) :
    inputs.Settles first w' r where
  ends := ⟨polls, last, by rw [hverdicts, h.verdicts], h.within, hends⟩
  noSubmit := IsTrans.trans _ _ _ h.noSubmit hlane

/-- The sweep, once the time is up. -/
theorem WaitInputs.ends_of_sweep {now : ℤ} (hnone : sweepsAsked w.waits = [])
    (hadvances : inputs.Advances) (hnow : now ≤ inputs.clockMs w.waits)
    (hup : inputs.timeoutMs ≤ now - start)
    (h : (inputs.sweep >>= fun ack => readClock inputs.clockMs >>= fun now =>
      (pure (some ⟨.sweptOnTimeout, polls, .ambiguous, some ack, now - start⟩) :
        Wait (Option AmbiguousResolution))).exec w = (r, w')) :
    inputs.Ends polls w' r (.ok .ambiguous) ∧ verdictsIn w'.waits = verdictsIn w.waits ∧
      NoSubmit w.lane w'.lane := by
  unfold WaitInputs.sweep at h
  rcases hsweep : (cancelAllAndBlock inputs.seams inputs.timeoutCause inputs.cancelAdapter).exec w.lane
    with ⟨answer, lane⟩
  obtain ⟨hharmless, hblocked⟩ := cancelAllAndBlock_blocks hsweep
  rw [Prog.exec_bind, exec_recorded, hsweep] at h
  cases answer with
  | error e =>
    obtain ⟨rfl, rfl⟩ := Prod.mk.inj h
    refine ⟨⟨.error e, ?_, hblocked, rfl⟩, ?_, hharmless.1⟩
    · simp [hnone, WaitCall.swept]
    · simp [WaitCall.verdict]
  | ok ack =>
    obtain ⟨rfl, rfl⟩ := Prod.mk.inj h
    refine ⟨⟨.ok ack, ?_, hblocked, _, ?_, rfl⟩, ?_, hharmless.1⟩
    · simp [hnone, WaitCall.swept]
    · have hlater := hnow.trans (hadvances.monotone w.waits
        (.cancelAllAndBlock inputs.timeoutCause (.ok ack)))
      exact hup.trans (sub_le_sub_right hlater start)
    · simp [WaitCall.verdict]

/-- **The loop**, from its head: fuel for the polls that are left is enough. -/
theorem WaitInputs.Waiting.settles (hadvances : inputs.Advances)
    (hpoll : ∀ waits, Prog.Keeps NoSubmit (inputs.poll waits)) {fuel : ℕ} {polls : ℕ} {w : WaitWorld}
    (h : inputs.Waiting start polls first w) (hfuel : inputs.pollBound ≤ fuel + polls)
    (hexec : (inputs.loop start fuel polls).exec w = (r, w')) : inputs.Settles first w' r := by
  induction fuel generalizing polls w with
  | zero =>
    have hwithin := h.within
    omega
  | succ fuel ih =>
    unfold WaitInputs.loop at hexec
    rcases hask : (inputs.poll w.waits).exec w.lane with ⟨answer, lane⟩
    have hlane : NoSubmit w.lane lane := (hpoll w.waits).of_exec hask
    rw [Prog.exec_bind, exec_recorded, hask] at hexec
    cases answer with
    | error e =>
      obtain ⟨rfl, rfl⟩ := Prod.mk.inj hexec
      exact h.settles_of_last (.error e) (by simp [WaitCall.verdict]) ⟨rfl, by simp [h.sweeps, WaitCall.swept]⟩ hlane
    | ok state =>
      dsimp only at hexec
      cases hlifts : state.lifts with
      | some outcome =>
        rw [hlifts] at hexec
        obtain ⟨rfl, rfl⟩ := Prod.mk.inj hexec
        refine h.settles_of_last (.ok state) ?_ ?_ hlane
        · simp [WaitCall.verdict]
        · unfold WaitInputs.Ends
          dsimp only
          rw [hlifts]
          exact ⟨by simp [h.sweeps, WaitCall.swept], _, rfl⟩
      | none =>
        obtain rfl : state = .ambiguous := by
          cases state <;> first | rfl | cases hlifts
        rw [hlifts] at hexec
        dsimp only at hexec
        rw [Prog.exec_bind_ok (exec_readClock _ _)] at hexec
        have hspent : start + polls * inputs.pollIntervalMs ≤
            inputs.clockMs (w.waits ++ [.poll (.ok .ambiguous)]) :=
          h.spent.trans (hadvances.monotone _ _)
        split_ifs at hexec with hup
        · obtain ⟨hends, hverdicts, hswept⟩ :=
            WaitInputs.ends_of_sweep (by simp [h.sweeps, WaitCall.swept]) hadvances
              (hadvances.monotone _ _) hup hexec
          refine h.settles_of_last (.ok .ambiguous) ?_ hends (IsTrans.trans _ _ _ hlane hswept)
          rw [hverdicts]
          simp [WaitCall.verdict]
        · rw [Prog.exec_bind_ok (exec_sleep _ _)] at hexec
          refine ih ⟨?_, ?_, ?_, hadvances.poll_again hspent (not_le.mp hup), ?_⟩ (by omega) hexec
          · simp [h.verdicts, WaitCall.verdict, List.replicate_succ']
          · simp [h.sweeps, WaitCall.swept]
          · have hread := hadvances.monotone (w.waits ++ [.poll (.ok .ambiguous)]) (.clockMs
              (inputs.clockMs (w.waits ++ [.poll (.ok .ambiguous)])))
            have hslept := hadvances.sleeps (w.waits ++ [.poll (.ok .ambiguous)] ++ [.clockMs
              (inputs.clockMs (w.waits ++ [.poll (.ok .ambiguous)]))]) (inputs.pollIntervalMs / 1000)
            push_cast
            linarith
          · exact IsTrans.trans _ _ _ h.noSubmit hlane

/-- **The wait**: over a clock that advances, it ends within its bound, as its last verdict says. -/
theorem resolveAmbiguousSubmit_settles (hadvances : inputs.Advances)
    (hpoll : ∀ pollFn ∈ inputs.pollFn, ∀ waits, Prog.Keeps NoSubmit (pollFn waits))
    (hfresh : w.waits = []) {fuel : ℕ} (hfuel : inputs.pollBound ≤ fuel)
    (h : (resolveAmbiguousSubmit inputs fuel).exec w = (r, w')) : inputs.Settles w w' r := by
  unfold resolveAmbiguousSubmit at h
  rw [Prog.exec_bind_ok (exec_readClock _ _)] at h
  refine WaitInputs.Waiting.settles hadvances (noSubmit_poll hpoll) ?_ hfuel h
  refine ⟨?_, ?_, ?_, le_max_left _ _, Std.Refl.refl _⟩
  · simp [hfresh, WaitCall.verdict]
  · simp [hfresh, WaitCall.swept]
  · simpa using hadvances.monotone _ _

end Run

/-- A call that sleeps. -/
def WaitCall.isSleep : WaitCall → Bool
  | .sleep _ => true
  | _ => false

/-- An order no surface of the venue tells anything of, over a clock that only sleeping moves. -/
def unknownOrder : WaitInputs where
  presubmitRecord := { integrityCommitmentHash := "", venueOrderKey := "key" }
  seams :=
    { adapter := ⟨none, none, none, none, none, fun _ => ""⟩
      signer := ⟨.fakeLocal, fun _ _ => .ok ""⟩
      readQuote := fun _ tokenId => .ok { tokenId, quoteTsS := 0 }
      nowFn := fun _ _ => .ok 0
      clockMs := fun _ => 0 }
  cancelAdapter := fun _ _ => .ok 3
  clockMs := fun waits => 100 * waits.countP WaitCall.isSleep
  pollIntervalMs := 100
  timeoutMs := 300

theorem advances_unknownOrder : unknownOrder.Advances where
  interval_pos := by decide
  monotone waits call := by
    simp only [unknownOrder, List.countP_append]
    push_cast
    omega
  sleeps waits seconds := by
    have hsleep : [WaitCall.sleep seconds].countP WaitCall.isSleep = 1 := rfl
    simp only [unknownOrder, List.countP_append, hsleep]
    push_cast
    omega

/-- A lane at its start, and a loop that has asked nothing. -/
def freshWait : WaitWorld := ⟨[], { history := [], session := { sessionId := "s" } }⟩

/-- Four polls, and one sweep. -/
theorem resolveAmbiguousSubmit_settles_unknownOrder : ∃ r w',
    (resolveAmbiguousSubmit unknownOrder unknownOrder.pollBound).exec freshWait = (r, w') ∧
      unknownOrder.Settles freshWait w' r ∧
      (verdictsIn w'.waits).length = 4 ∧ (sweepsAsked w'.waits).length = 1 := by
  have hbound : unknownOrder.pollBound = 4 := by
    norm_num [WaitInputs.pollBound, unknownOrder]
    rfl
  refine ⟨_, _, rfl, resolveAmbiguousSubmit_settles advances_unknownOrder ?_ rfl le_rfl rfl, ?_, ?_⟩
  · rintro pollFn ⟨⟩
  · rw [hbound]
    rfl
  · rw [hbound]
    rfl

end Veridex.DustExecution
