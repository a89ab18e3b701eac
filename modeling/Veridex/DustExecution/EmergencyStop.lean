import Veridex.DustExecution.FacadeRuns
import Veridex.DustExecution.SweepRuns

/-!
# The emergency stop through the tool boundary (`facade.py`, `runner.py`)

A `cancel_all` request takes the path of a request for an order: it reserves a slot before the runner
is called. The reservation refuses it in the states in which it refuses an order, so a session frozen
on an order that may be live, or at one of its caps, is not swept.

Results: `proposeMMExecution_cancelAll_iff`.
-/

namespace Veridex.DustExecution

open Veridex.Py Veridex.Policy Veridex.Lib

/-- **A `cancel_all` request reaches its sweep.** The sink accepts its opening, the clock answers a
date, the provider hands out a slot, the interlock's clock and store answer, and the run itself
reaches the sweep. -/
def StopReached (inputs : ProposeInputs) (w : FacadeWorld) (provider : Provider) : Prop :=
  ∃ now date state arming asked, OpeningAccepted inputs w.telemetry ∧
    inputs.seams.nowFn w.lane.history () = .ok now ∧
    DateTime.fromTimestampMs (now * 1000) = .ok date ∧
    SlotFree inputs provider date ∧
    provider.load inputs.request.sessionId date = .ok state ∧
    InterlockBound inputs inputs.request.sessionId (w.lane.history ++ [.now (.ok now)]) arming
      asked ∧
    ReachesSweep (inputs.runInputs (some state) arming) asked

section Stop

variable {inputs : ProposeInputs} {w w' : FacadeWorld} {provider : Provider}

/-- The run of a permitted live `cancel_all` request. -/
theorem cancelAllRun_runInputs {state : DurableSessionState} {arming : Option ModeBArming}
    (hlive : inputs.request.mode = .liveGuarded) (hkind : inputs.request.intentKind = .cancelAll)
    (hpermitted : inputs.request.intentKind.text ∈ inputs.manifest.permittedIntentKinds)
    (hsweep : inputs.seams.adapter.cancelAllOrders.isSome = true) :
    CancelAllRun (inputs.runInputs (some state) arming) where
  live := hlive
  intent := by
    rw [hkind] at hpermitted
    simp [intentBlockReason, ProposeInputs.runInputs, hkind, hpermitted]
  sweeps := hsweep
  session_open := rfl
  breaker := rfl
  fills := rfl
  shutdown := rfl

/-- **The emergency stop.** A permitted live `cancel_all` request, under real envelope caps and the
operator's own session, whatever hashes it declares, places no order and sweeps exactly once if and
only if it reaches its sweep. -/
theorem proposeMMExecution_cancelAll_iff (inputs : ProposeInputs) (w : FacadeWorld)
    (provider : Provider) (hw : w.provider = some provider)
    (hlive : inputs.request.mode = .liveGuarded) (hkind : inputs.request.intentKind = .cancelAll)
    (hpermitted : inputs.request.intentKind.text ∈ inputs.manifest.permittedIntentKinds)
    (hidentity : inputs.request.sessionId ≠ "")
    (hsession : FinitePositive inputs.envelope.maxSessionLoss)
    (hdaily : FinitePositive inputs.envelope.maxDailyLoss)
    (hsweep : inputs.seams.adapter.cancelAllOrders.isSome = true) :
    (∃ own, ((proposeMMExecution inputs).exec w).2.lane.history = w.lane.history ++ own ∧
      placedIn own = 0 ∧ sweepsIn own = 1) ↔ StopReached inputs w provider := by
  rcases h : (proposeMMExecution inputs).exec w with ⟨r, w'⟩
  -- a call that asked for no sweep, against one that reaches it
  have hnever {own : List Call} (hown : w'.lane.history = w.lane.history ++ own)
      (hquiet : ∀ call ∈ own, call.isQuiet = true) (hnot : ¬ StopReached inputs w provider) :
      (∃ own, w'.lane.history = w.lane.history ++ own ∧ placedIn own = 0 ∧ sweepsIn own = 1) ↔
        StopReached inputs w provider := by
    refine iff_of_false ?_ hnot
    rintro ⟨own', hown', -, hone⟩
    obtain rfl := List.append_cancel_left (hown.symm.trans hown')
    simp [sweepsIn_quiet hquiet] at hone
  have hadmits {now : ℤ} {date : DateTime} (hopening : OpeningAccepted inputs w.telemetry)
      (hclock : inputs.seams.nowFn w.lane.history () = .ok now)
      (hdate : DateTime.fromTimestampMs (now * 1000) = .ok date)
      (hslot : SlotFree inputs provider date) : AdmittedAt inputs w provider now date :=
    ⟨hopening, hclock, hdate, hidentity, hsession, hdaily, hslot⟩
  rcases proposeMMExecution_cases hlive hw h with ⟨⟨⟨new, hnew, hquiet⟩, -⟩, hnot⟩ |
    ⟨now, date, state, u, hadmitted, hload, hulane, huprovider, h⟩
  · refine hnever hnew hquiet ?_
    rintro ⟨now, date, -, -, -, hopening, hclock, hdate, hslot, -⟩
    exact hnot now date (hadmits hopening hclock hdate hslot)
  have huhistory : u.lane.history = w.lane.history ++ [.now (.ok now)] := by rw [hulane]; rfl
  -- the call's own clock, date and state are the ones it is reached with
  have hsame {now' : ℤ} {date' : DateTime} {state' : DurableSessionState}
      (hclock : inputs.seams.nowFn w.lane.history () = .ok now')
      (hdate : DateTime.fromTimestampMs (now' * 1000) = .ok date')
      (hload' : provider.load inputs.request.sessionId date' = .ok state') :
      now' = now ∧ state' = state := by
    obtain rfl := Except.ok.inj (hclock.symm.trans hadmitted.clock)
    obtain rfl := Except.ok.inj (hdate.symm.trans hadmitted.dated)
    exact ⟨rfl, Except.ok.inj (hload'.symm.trans hload)⟩
  have hstate : state.sessionIdentity = inputs.request.sessionId := (load_state hload).2.1
  have hticked {new : List Call} (hquiet : ∀ call ∈ new, call.isQuiet = true) :
      ∀ call ∈ Call.now (.ok now) :: new, call.isQuiet = true := by
    intro call hcall
    rcases List.mem_cons.mp hcall with rfl | hcall
    · rfl
    · exact hquiet call hcall
  rcases runReserved_cases hlive huprovider h with ⟨⟨⟨new, hnew, hquiet⟩, -⟩, hnone⟩ |
    ⟨arming, v, ran, hbound, ⟨new, hnew, hquiet⟩, hran, -⟩
  · refine hnever (by rw [hnew, huhistory, List.append_assoc]; rfl) (hticked hquiet) ?_
    rintro ⟨now', date', state', arming, asked, -, hclock, hdate, -, hload', hbound, -⟩
    obtain ⟨rfl, rfl⟩ := hsame hclock hdate hload'
    rw [hstate, huhistory] at hnone
    exact hnone arming asked hbound
  rw [hstate, huhistory] at hbound
  obtain ⟨own, hown, hplaced, -, hreach⟩ :=
    runDustExecution_cancelAll (cancelAllRun_runInputs hlive hkind hpermitted hsweep) hran
  have hhistory : w'.lane.history = w.lane.history ++ (Call.now (.ok now) :: new ++ own) := by
    rw [hown, hnew, huhistory]
    simp
  have hsweeps : sweepsIn (Call.now (.ok now) :: new ++ own) = sweepsIn own := by
    rw [sweepsIn_append, sweepsIn_quiet (hticked hquiet), zero_add]
  constructor
  · rintro ⟨own', hown', -, hone⟩
    obtain rfl := List.append_cancel_left (hhistory.symm.trans hown')
    exact ⟨now, date, state, arming, v.history, hadmitted.opening, hadmitted.clock, hadmitted.dated,
      hadmitted.slot, hload, hbound, hreach.mp (hsweeps.symm.trans hone)⟩
  · rintro ⟨now', date', state', arming', asked, -, hclock, hdate, -, hload', hbound', hswept⟩
    obtain ⟨rfl, rfl⟩ := hsame hclock hdate hload'
    obtain ⟨rfl, rfl⟩ := hbound.unique hbound'
    refine ⟨_, hhistory, ?_, hsweeps.trans (hreach.mpr hswept)⟩
    rw [placedIn_append, placedIn_quiet (hticked hquiet), hplaced]

end Stop

/-! ## A stop on fixed inputs -/

/-- A session with one pending row, of an attempt to place an order. -/
def frozenProvider : Provider :=
  Provider.new.withReservation "dust-attempt:session:order" ⟨"session", .pending, none⟩

/-- On a fresh provider the stop sweeps once, as it does whenever it is reached. -/
theorem proposeMMExecution_cancelAll_fresh :
    sweepsIn ((proposeMMExecution (ArmedCall.inputs .cancelAll)).exec
      (ArmedCall.start .new)).2.lane.history = 1 ∧
    ((∃ own, ((proposeMMExecution (ArmedCall.inputs .cancelAll)).exec
        (ArmedCall.start .new)).2.lane.history = (ArmedCall.start .new).lane.history ++ own ∧
      placedIn own = 0 ∧ sweepsIn own = 1) ↔
      StopReached (ArmedCall.inputs .cancelAll) (ArmedCall.start .new) .new) :=
  ⟨by decide +kernel, proposeMMExecution_cancelAll_iff _ _ _ rfl rfl rfl (by decide) (by decide)
    ⟨10, rfl, by norm_num⟩ ⟨10, rfl, by norm_num⟩ rfl⟩

/-- On a session frozen by an order that may be live, a stop that meets every condition on its
request is refused, and nothing is swept. -/
theorem proposeMMExecution_cancelAll_frozen :
    ((ArmedCall.inputs .cancelAll).request.mode = .liveGuarded ∧
      (ArmedCall.inputs .cancelAll).request.intentKind.text ∈
        (ArmedCall.inputs .cancelAll).manifest.permittedIntentKinds ∧
      (ArmedCall.inputs .cancelAll).request.sessionId ≠ "" ∧
      (ArmedCall.inputs .cancelAll).seams.adapter.cancelAllOrders.isSome = true) ∧
    FinitePositive (ArmedCall.inputs .cancelAll).envelope.maxSessionLoss ∧
    FinitePositive (ArmedCall.inputs .cancelAll).envelope.maxDailyLoss ∧
    ((ArmedCall.inputs .cancelAll).runInputs none none).DeclaresPins
      (ArmedCall.inputs .cancelAll).request ∧
    sweepsIn ((proposeMMExecution (ArmedCall.inputs .cancelAll)).exec
      (ArmedCall.start frozenProvider)).2.lane.history = 0 :=
  ⟨by decide +kernel, ⟨10, rfl, by norm_num⟩, ⟨10, rfl, by norm_num⟩, by decide +kernel,
    by decide +kernel⟩

end Veridex.DustExecution
