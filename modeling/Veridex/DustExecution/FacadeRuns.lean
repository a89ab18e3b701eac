import Veridex.DustExecution.Facade
import Veridex.DustExecution.RunGates

/-!
# What a call does to its reservation (`facade.py`, `session_state.py`)

A live call on a provider either returns early, with no order placed and the provider as it was, or
it holds a fresh pending row for the whole of its run (`proposeMMExecution_cases`). The row is
settled only when the run has returned, with the outcome of the run's own events; so a raise on the
way, in the run or in the settle, leaves it pending.

Results: `proposeMMExecution_settled`.
-/

namespace Veridex.DustExecution

open Veridex.Py Veridex.Policy Veridex.Lib

/-! ## Telemetry moves nothing -/

/-- The lane and the provider are left alone. -/
def Aside (w w' : FacadeWorld) : Prop := w'.lane = w.lane ∧ w'.provider = w.provider

instance : Std.Refl Aside := ⟨fun _ => ⟨rfl, rfl⟩⟩

instance : IsTrans FacadeWorld Aside := ⟨fun _ _ _ h h' => ⟨h'.1.trans h.1, h'.2.trans h.2⟩⟩

/-- The provider is left alone, and no order and no sweep is asked for. -/
def Unreserved (w w' : FacadeWorld) : Prop :=
  Calls (fun call => call.isQuiet = true) w.lane w'.lane ∧ w'.provider = w.provider

instance : Std.Refl Unreserved := ⟨fun w => ⟨Std.Refl.refl w.lane, rfl⟩⟩

instance : IsTrans FacadeWorld Unreserved :=
  ⟨fun _ _ _ h h' => ⟨IsTrans.trans _ _ _ h.1 h'.1, h'.2.trans h.2⟩⟩

theorem exec_inLane {α : Type} (m : Lane α) (w : FacadeWorld) :
    (inLane m).exec w = ((m.exec w.lane).1, { w with lane := (m.exec w.lane).2 }) := Prog.exec_zoom

/-- A sequence that starts with a question of the lane. -/
theorem exec_inLane_ask_cases {α β γ : Type} {surface : Surface α β} {arg : α}
    {entry : Except PyExc β → Call} {f : β → Facade γ} {w w' : FacadeWorld} {r : Except PyExc γ}
    (h : (inLane (ask surface arg entry) >>= f).exec w = (r, w')) :
    (∃ e, surface w.lane.history arg = .error e ∧ r = .error e ∧
      w' = { w with lane := w.lane.record (entry (.error e)) }) ∨
    ∃ b, surface w.lane.history arg = .ok b ∧
      (f b).exec { w with lane := w.lane.record (entry (.ok b)) } = (r, w') := by
  rcases Prog.exec_bind_cases h with ⟨e, hask, hr⟩ | ⟨b, t, hask, hf⟩
  · rw [exec_inLane, exec_ask] at hask
    obtain ⟨hanswer, rfl⟩ := Prod.mk.inj hask
    simp only at hanswer
    exact .inl ⟨e, hanswer, hr, by rw [hanswer]⟩
  · rw [exec_inLane, exec_ask] at hask
    obtain ⟨hanswer, rfl⟩ := Prod.mk.inj hask
    simp only at hanswer
    rw [hanswer] at hf
    exact .inr ⟨b, hanswer, hf⟩

theorem unreserved_record {w : FacadeWorld} {call : Call} (h : call.isQuiet = true) :
    Unreserved w { w with lane := w.lane.record call } := ⟨(quiet_record h).1, rfl⟩

section Telemetry

variable {inputs : ProposeInputs} {w w' : FacadeWorld}

theorem Aside.unreserved (h : Aside w w') : Unreserved w w' :=
  ⟨⟨[], by rw [h.1, List.append_nil], by simp⟩, h.2⟩

theorem aside_emit (payload : RuntimePayload) : Prog.Keeps Aside (emit inputs payload) := by
  unfold emit
  split
  · exact Prog.keeps_pure _
  · refine Prog.keeps_bind Prog.keeps_get fun w => ?_
    refine Prog.keeps_bind (Prog.keeps_modify fun w => ⟨rfl, rfl⟩) fun _ => ?_
    exact Prog.keeps_ofExcept _

theorem aside_finish (result : MMExecutionToolResult) (sessionStatus : String) (count : ℕ) :
    Prog.Keeps Aside (finish inputs result sessionStatus count) := by
  unfold finish
  refine Prog.keeps_bind (aside_emit _) fun _ => ?_
  exact Prog.keeps_bind (aside_emit _) fun _ => Prog.keeps_pure _

/-- The sink, where there is one, accepts the two events a call opens with. -/
def OpeningAccepted (inputs : ProposeInputs) (sent : List RuntimeEvent) : Prop :=
  ∀ sink ∈ inputs.eventSink,
    let started := inputs.event (.runStarted inputs.request.intentKind inputs.request.mode)
    sink sent started = .ok () ∧
      sink (sent ++ [started]) (inputs.event (.statusChanged .running)) = .ok ()

theorem exec_emit_some {sink : RuntimeEventSink} (hsink : inputs.eventSink = some sink)
    (payload : RuntimePayload) (w : FacadeWorld) :
    (emit inputs payload).exec w = (sink w.telemetry (inputs.event payload),
      { w with telemetry := w.telemetry ++ [inputs.event payload] }) := by
  unfold emit
  simp only [hsink]
  rw [Prog.exec_bind_ok Prog.exec_get, Prog.exec_bind_ok (Prog.exec_modify _), Prog.exec_ofExcept]

/-- **The opening**: both events are accepted, or the call has raised. -/
theorem opening_cases {α : Type} {m : Facade α} {r : Except PyExc α}
    (h : (do
      emit inputs (.runStarted inputs.request.intentKind inputs.request.mode)
      emit inputs (.statusChanged .running)
      m).exec w = (r, w')) :
    (¬ OpeningAccepted inputs w.telemetry ∧ Aside w w') ∨
      OpeningAccepted inputs w.telemetry ∧ ∃ u, Aside w u ∧ m.exec u = (r, w') := by
  unfold OpeningAccepted
  cases hsink : inputs.eventSink with
  | none =>
    have hnone (payload : RuntimePayload) (x : FacadeWorld) :
        (emit inputs payload).exec x = (.ok (), x) := by simp [emit, hsink]
    rw [Prog.exec_bind_ok (hnone _ _), Prog.exec_bind_ok (hnone _ _)] at h
    exact .inr ⟨by simp, w, Std.Refl.refl _, h⟩
  | some sink =>
    simp only [Option.mem_some_iff, forall_eq']
    obtain ⟨e, hfirst, rfl⟩ | ⟨_, t, hfirst, h⟩ := Prog.exec_bind_cases h
    · refine .inl ⟨?_, (aside_emit _).of_exec hfirst⟩
      rw [exec_emit_some hsink] at hfirst
      rintro ⟨hok, -⟩
      simp [hok] at hfirst
    have ht := (aside_emit _).of_exec hfirst
    rw [exec_emit_some hsink] at hfirst
    obtain ⟨haccepted, rfl⟩ := Prod.mk.inj hfirst
    obtain ⟨e, hsecond, rfl⟩ | ⟨_, u, hsecond, h⟩ := Prog.exec_bind_cases h
    · refine .inl ⟨?_, IsTrans.trans _ _ _ ht ((aside_emit _).of_exec hsecond)⟩
      rw [exec_emit_some hsink] at hsecond
      rintro ⟨-, hok⟩
      simp [hok] at hsecond
    · have hu := (aside_emit _).of_exec hsecond
      rw [exec_emit_some hsink] at hsecond
      exact .inr ⟨⟨haccepted, (Prod.mk.inj hsecond).1⟩, u, IsTrans.trans _ _ _ ht hu, h⟩

end Telemetry

/-! ## Being admitted -/

/-- **The provider hands the call a slot** at a date: it is up, the ledger of the session sums, the
attempt has no row, nothing freezes the session, and every enabled cap has room. -/
structure SlotFree (inputs : ProposeInputs) (provider : Provider) (date : DateTime) : Prop where
  load_up : inputs.outage.load = none
  reserve_up : inputs.outage.reserveOrFreeze = none
  dated : ∀ fill ∈ provider.fills inputs.request.sessionId, Representable fill
  fresh : provider.reservations.lookup inputs.attemptId = none
  unfrozen : provider.unresolvedCount inputs.request.sessionId = 0
  session_room : provider.OrdersBelow inputs.request.sessionId inputs.envelope.maxOrdersPerSession
  day_room : provider.OrdersBelow inputs.request.sessionId inputs.envelope.maxOrdersPerDay
  loss_room : provider.LossWithin inputs.request.sessionId date inputs.reservationCaps

/-- **A call is admitted**: the sink accepts its opening, the clock answers a date a `datetime` can
hold, the operator's identity is there, the envelope caps are real, and a slot is free. -/
structure AdmittedAt (inputs : ProposeInputs) (w : FacadeWorld) (provider : Provider) (now : ℤ)
    (date : DateTime) : Prop where
  opening : OpeningAccepted inputs w.telemetry
  clock : inputs.seams.nowFn w.lane.history () = .ok now
  dated : DateTime.fromTimestampMs (now * 1000) = .ok date
  identity : inputs.request.sessionId ≠ ""
  session_cap : FinitePositive inputs.envelope.maxSessionLoss
  daily_cap : FinitePositive inputs.envelope.maxDailyLoss
  slot : SlotFree inputs provider date

/-- The row a call reserves. -/
def ProposeInputs.pendingRow (inputs : ProposeInputs) : Reservation :=
  ⟨inputs.request.sessionId, .pending, none⟩

section Admission

variable {inputs : ProposeInputs} {w w' : FacadeWorld} {provider : Provider}

theorem reservationReturn_none {outcome : ScopedReservationOutcome} :
    reservationReturn outcome = none ↔ outcome = .reserved := by
  cases outcome <;> simp [reservationReturn]

/-- What a provider that adopts the operator's identity loads. -/
theorem load_state {sessionId : String} {now : DateTime} {state : DurableSessionState}
    (h : provider.load sessionId now = .ok state) :
    (∀ fill ∈ provider.fills sessionId, Representable fill) ∧ state.sessionIdentity = sessionId ∧
      state.risk.sessionId = sessionId := by
  unfold Provider.load at h
  cases hnets : provider.netPnl sessionId now with
  | error e => simp [hnets, bind, Except.bind] at h
  | ok nets =>
    simp only [hnets, bind, Except.bind, pure, Except.pure, Except.ok.injEq] at h
    obtain rfl := h
    exact ⟨(Provider.netPnl_ok.mp hnets).1, rfl, rfl⟩

theorem load_error {sessionId : String} {now : DateTime} {e : PyExc}
    (h : provider.load sessionId now = .error e) :
    ¬ ∀ fill ∈ provider.fills sessionId, Representable fill := by
  intro hdated
  unfold Provider.load at h
  rw [Provider.netPnl_ok.mpr ⟨hdated, rfl⟩] at h
  simp [bind, Except.bind, pure, Except.pure] at h

/-- A live call with a loaded state goes on exactly under an identity and real envelope caps. -/
theorem admissionReturn_none {state : DurableSessionState} (hlive : inputs.request.mode = .liveGuarded)
    (hidentity : state.sessionIdentity = inputs.request.sessionId)
    (hrisk : state.risk.sessionId = inputs.request.sessionId) :
    admissionReturn inputs (some state) = none ↔ inputs.request.sessionId ≠ "" ∧
      FinitePositive inputs.envelope.maxSessionLoss ∧
      FinitePositive inputs.envelope.maxDailyLoss := by
  rw [← authorizeModeB_ok, ← passes_iff]
  unfold admissionReturn identityMismatch
  simp only [hlive, hidentity, hrisk, reduceCtorEq, and_false, if_false, Option.any_some, ne_eq,
    not_true_eq_false, decide_false, Bool.or_false, decide_eq_true_eq, true_and]
  split_ifs with hempty hcaps
  · simp [hempty]
  · simp only [Bool.not_eq_true'] at hcaps
    simp [hcaps]
  · simp only [Bool.not_eq_true', Bool.not_eq_false] at hcaps
    simp [hempty, hcaps]

theorem SlotFree.reserves {date : DateTime} (h : SlotFree inputs provider date) :
    inputs.outage.reserveOrFreeze = none ∧
      provider.reservations.lookup inputs.attemptId = none ∧
      provider.refusal inputs.request.sessionId date inputs.reservationCaps = .ok none :=
  ⟨h.reserve_up, h.fresh,
    Provider.refusal_none.mpr ⟨h.unfrozen, h.session_room, h.day_room, h.loss_room⟩⟩

/-- The durable state is loaded, with the provider's own identity, or the load has raised. -/
theorem loadDurableState_cases {date : DateTime} {r : Except PyExc (Option DurableSessionState)}
    (hw : w.provider = some provider) (h : (loadDurableState inputs date).exec w = (r, w')) :
    w' = w ∧ ((∃ state, r = .ok (some state) ∧ inputs.outage.load = none ∧
        provider.load inputs.request.sessionId date = .ok state) ∨
      (∃ e, r = .error e) ∧ ¬ (inputs.outage.load = none ∧
        ∀ fill ∈ provider.fills inputs.request.sessionId, Representable fill)) := by
  unfold loadDurableState at h
  rw [Prog.exec_bind_ok Prog.exec_get] at h
  simp only [hw] at h
  cases hup : inputs.outage.load with
  | some e =>
    simp only [hup, ProviderOutage.check] at h
    rw [Prog.exec_bind_error (Prog.exec_ofExcept _)] at h
    obtain ⟨rfl, rfl⟩ := Prod.mk.inj h
    exact ⟨rfl, .inr ⟨⟨e, rfl⟩, by simp⟩⟩
  | none =>
    simp only [hup, ProviderOutage.check] at h
    rw [Prog.exec_bind_ok (Prog.exec_ofExcept _)] at h
    cases hload : provider.load inputs.request.sessionId date with
    | error e =>
      rw [hload, Prog.exec_bind_error (Prog.exec_ofExcept _)] at h
      obtain ⟨rfl, rfl⟩ := Prod.mk.inj h
      exact ⟨rfl, .inr ⟨⟨e, rfl⟩, fun hboth => load_error hload hboth.2⟩⟩
    | ok state =>
      rw [hload, Prog.exec_bind_ok (Prog.exec_ofExcept _)] at h
      obtain ⟨rfl, rfl⟩ := Prod.mk.inj h
      exact ⟨rfl, .inl ⟨state, rfl, rfl, rfl⟩⟩

/-- **A reservation** takes a free slot, or leaves the provider alone. -/
theorem reserveAttempt_cases {date : DateTime} {sessionIdentity : String}
    {r : Except PyExc (Option EarlyReturn)} (hw : w.provider = some provider)
    (h : (reserveAttempt inputs date sessionIdentity).exec w = (r, w')) :
    (Aside w w' ∧ r ≠ .ok none ∧ ¬ (inputs.outage.reserveOrFreeze = none ∧
        provider.reservations.lookup inputs.attemptId = none ∧
        provider.refusal sessionIdentity date inputs.reservationCaps = .ok none)) ∨
      r = .ok none ∧ inputs.outage.reserveOrFreeze = none ∧
        provider.reservations.lookup inputs.attemptId = none ∧
        provider.refusal sessionIdentity date inputs.reservationCaps = .ok none ∧
        w' = { w with
          provider := some (provider.withReservation inputs.attemptId
            ⟨sessionIdentity, .pending, none⟩) } := by
  have hfail {e : PyExc} (h : (if e.isException then return some failClosedReservationFailed
      else throw e : Facade (Option EarlyReturn)).exec w = (r, w')) :
      Aside w w' ∧ r ≠ .ok none := by
    split_ifs at h
    · obtain ⟨rfl, rfl⟩ := Prod.mk.inj h
      exact ⟨Std.Refl.refl _, by simp⟩
    · obtain ⟨rfl, rfl⟩ := Prod.mk.inj h
      exact ⟨Std.Refl.refl _, by simp⟩
  unfold reserveAttempt at h
  rw [Prog.exec_bind_ok Prog.exec_get] at h
  simp only [hw] at h
  cases hup : inputs.outage.reserveOrFreeze with
  | some e =>
    simp only [hup, ProviderOutage.check, bind, Except.bind] at h
    obtain ⟨haside, hr⟩ := hfail h
    exact .inl ⟨haside, hr, by simp⟩
  | none =>
    simp only [hup, ProviderOutage.check, bind, Except.bind] at h
    cases hreserve : provider.reserveOrFreeze sessionIdentity date inputs.attemptId
        inputs.reservationCaps with
    | error e =>
      simp only [hreserve] at h
      obtain ⟨haside, hr⟩ := hfail h
      refine .inl ⟨haside, hr, ?_⟩
      rintro ⟨-, hfresh, hroom⟩
      rw [Provider.reserveOrFreeze_reserved.mpr ⟨hfresh, hroom, rfl⟩] at hreserve
      simp at hreserve
    | ok reserved =>
      obtain ⟨outcome, reservedProvider⟩ := reserved
      simp only [hreserve] at h
      obtain ⟨rfl, rfl⟩ := Prod.mk.inj h
      by_cases hout : outcome = .reserved
      · subst hout
        obtain ⟨hfresh, hroom, rfl⟩ := Provider.reserveOrFreeze_reserved.mp hreserve
        exact .inr ⟨rfl, rfl, hfresh, hroom, rfl⟩
      · obtain rfl := Provider.reserveOrFreeze_unchanged hreserve hout
        refine .inl ⟨⟨rfl, hw.symm⟩, ?_, ?_⟩
        · intro hnone
          exact hout (reservationReturn_none.mp (Except.ok.inj hnone))
        · rintro ⟨-, hfresh, hroom⟩
          rw [Provider.reserveOrFreeze_reserved.mpr ⟨hfresh, hroom, rfl⟩] at hreserve
          exact hout (Prod.mk.inj (Except.ok.inj hreserve)).1.symm

/-- **A call** ends early with the provider as it was, or runs holding a fresh pending row. -/
theorem proposeMMExecution_cases {r : Except PyExc MMExecutionToolResult}
    (hlive : inputs.request.mode = .liveGuarded) (hw : w.provider = some provider)
    (h : (proposeMMExecution inputs).exec w = (r, w')) :
    (Unreserved w w' ∧ ∀ now date, ¬ AdmittedAt inputs w provider now date) ∨
      ∃ now date state u, AdmittedAt inputs w provider now date ∧
        provider.load inputs.request.sessionId date = .ok state ∧
        u.lane = w.lane.record (.now (.ok now)) ∧
        u.provider = some (provider.withReservation inputs.attemptId inputs.pendingRow) ∧
        (runReserved inputs (some state)).exec u = (r, w') := by
  unfold proposeMMExecution at h
  rcases opening_cases h with ⟨hrefused, haside⟩ | ⟨hopening, v, haside, h⟩
  · exact .inl ⟨haside.unreserved, fun now date hadmitted => hrefused hadmitted.opening⟩
  have hvlane : v.lane = w.lane := haside.1
  have hvprovider : v.provider = w.provider := haside.2
  rw [hw] at hvprovider
  obtain ⟨e, hanswer, rfl, rfl⟩ | ⟨now, hanswer, h⟩ := exec_inLane_ask_cases h
  · rw [hvlane] at hanswer
    refine .inl ⟨IsTrans.trans _ _ _ haside.unreserved (unreserved_record rfl),
      fun now date hadmitted => ?_⟩
    simp [hadmitted.clock] at hanswer
  rw [hvlane] at hanswer h
  generalize htick : ({ v with lane := w.lane.record (.now (.ok now)) } : FacadeWorld) = t at h
  have htlane : t.lane = w.lane.record (.now (.ok now)) := by rw [← htick]
  have htprovider : t.provider = some provider := by rw [← htick]; exact hvprovider
  have hasked : Unreserved w t := by
    rw [← htick]
    exact ⟨(quiet_record rfl).1, by rw [hw]; exact hvprovider⟩
  have hclock_eq {now' : ℤ} {date : DateTime} (hadmitted : AdmittedAt inputs w provider now' date) :
      now' = now := Except.ok.inj (hadmitted.clock.symm.trans hanswer)
  obtain ⟨e, herr, rfl, rfl⟩ | ⟨date, hdate, h⟩ := Prog.exec_ofExcept_cases h
  · refine .inl ⟨hasked, fun now' date hadmitted => ?_⟩
    obtain rfl := hclock_eq hadmitted
    simp [hadmitted.dated] at herr
  have hdate_eq {now' : ℤ} {date' : DateTime}
      (hadmitted : AdmittedAt inputs w provider now' date') : date' = date := by
    obtain rfl := hclock_eq hadmitted
    exact Except.ok.inj (hadmitted.dated.symm.trans hdate)
  obtain ⟨e, hdurable, rfl⟩ | ⟨durableState, u, hdurable, h⟩ := Prog.exec_bind_cases h
  · obtain ⟨rfl, ⟨state, hok, -⟩ | ⟨-, hdown⟩⟩ := loadDurableState_cases htprovider hdurable
    · simp at hok
    · exact .inl ⟨hasked, fun _ _ hadmitted =>
        hdown ⟨hadmitted.slot.load_up, hadmitted.slot.dated⟩⟩
  obtain ⟨rfl, ⟨state, hok, hup, hload⟩ | ⟨⟨e, herr⟩, -⟩⟩ :=
    loadDurableState_cases htprovider hdurable
  · obtain rfl := Except.ok.inj hok
    obtain ⟨hfills, hidentity, hrisk⟩ := load_state hload
    have hgate := admissionReturn_none hlive hidentity hrisk
    cases hearly : admissionReturn inputs (some state) with
    | some early =>
      rw [hearly] at h hgate
      refine .inl ⟨IsTrans.trans _ _ _ hasked
        ((aside_finish _ _ _).of_exec h).unreserved, fun _ _ hadmitted => ?_⟩
      have := hgate.mpr ⟨hadmitted.identity, hadmitted.session_cap, hadmitted.daily_cap⟩
      simp at this
    | none =>
      rw [hearly] at h hgate
      obtain ⟨hnonempty, hsession, hdaily⟩ := hgate.mp rfl
      simp only [ProposeInputs.sessionIdentity, hidentity] at h
      obtain ⟨e, hreserve, rfl⟩ | ⟨early, v, hreserve, h⟩ := Prog.exec_bind_cases h
      · rcases reserveAttempt_cases htprovider hreserve with
          ⟨haside, -, hrefused⟩ | ⟨hok, -⟩
        · exact .inl ⟨IsTrans.trans _ _ _ hasked haside.unreserved, fun _ date' hadmitted =>
            hrefused (hdate_eq hadmitted ▸ hadmitted.slot.reserves)⟩
        · simp at hok
      · rcases reserveAttempt_cases htprovider hreserve with
          ⟨haside, hreturn, hrefused⟩ | ⟨hok, hreserveUp, hfresh, hroom, rfl⟩
        · cases early with
          | none => exact absurd rfl hreturn
          | some early =>
            refine .inl ⟨IsTrans.trans _ _ _ hasked (IsTrans.trans _ _ _ haside.unreserved
              ((aside_finish _ _ _).of_exec h).unreserved), fun _ _ hadmitted => ?_⟩
            exact hrefused (hdate_eq hadmitted ▸ hadmitted.slot.reserves)
        · obtain rfl := Except.ok.inj hok
          obtain ⟨hfree, hsessionRoom, hdayRoom, hloss⟩ := Provider.refusal_none.mp hroom
          refine .inr ⟨now, date, state, _, ⟨hopening, hanswer, hdate, hnonempty, hsession, hdaily,
            ⟨hup, hreserveUp, hfills, hfresh, hfree, hsessionRoom, hdayRoom, hloss⟩⟩, hload,
            ?_, ?_, h⟩
          · exact htlane
          · rfl
  · simp at herr

end Admission

/-! ## Running -/

/-- **The arming bundle a live run is given**, with the history after the facade has asked for it:
none without a bundle, none without a recorded interlock, else the bundle with its proof. -/
inductive InterlockBound (inputs : ProposeInputs) (sessionIdentity : String)
    (history : List Call) : Option ModeBArming → List Call → Prop
  | unarmed (harming : inputs.arming = none) :
      InterlockBound inputs sessionIdentity history none history
  | withheld (bundle : ModeBArming) (now : ℤ) (harming : inputs.arming = some bundle)
      (hclock : inputs.seams.nowFn history () = .ok now)
      (hstore : recordingStore inputs
        (evaluateOperatorInterlock inputs.operatorInterlock (now * 1000)) = none) :
      InterlockBound inputs sessionIdentity history none (history ++ [.now (.ok now)])
  | recorded (bundle : ModeBArming) (now : ℤ) (gate : OperatorInterlockGate)
      (store : OperatorInterlockStore) (receipt : String) (harming : inputs.arming = some bundle)
      (hclock : inputs.seams.nowFn history () = .ok now)
      (hgate : gate = evaluateOperatorInterlock inputs.operatorInterlock (now * 1000))
      (hstore : recordingStore inputs gate = some store)
      (hrecord : store.record (history ++ [.now (.ok now)])
        (interlockBinding bundle gate sessionIdentity) = .ok receipt) :
      InterlockBound inputs sessionIdentity history (some (bindProof bundle gate receipt))
        (history ++ [.now (.ok now),
          .recordInterlock (interlockBinding bundle gate sessionIdentity) (.ok receipt)])

section Running

variable {inputs : ProposeInputs} {w w' : FacadeWorld} {sessionIdentity : String}

/-- The bundle of a call is what its inputs and the answers make it. -/
theorem InterlockBound.unique {history asked asked' : List Call} {arming arming' : Option ModeBArming}
    (h : InterlockBound inputs sessionIdentity history arming asked)
    (h' : InterlockBound inputs sessionIdentity history arming' asked') :
    arming = arming' ∧ asked = asked' := by
  cases h with
  | unarmed harming =>
    cases h' with
    | unarmed => exact ⟨rfl, rfl⟩
    | withheld _ _ harming' => simp [harming] at harming'
    | recorded _ _ _ _ _ harming' => simp [harming] at harming'
  | withheld bundle now harming hclock hstore =>
    cases h' with
    | unarmed harming' => simp [harming] at harming'
    | withheld _ now' _ hclock' =>
      obtain rfl := Except.ok.inj (hclock.symm.trans hclock')
      exact ⟨rfl, rfl⟩
    | recorded _ now' gate _ _ _ hclock' hgate' hstore' =>
      obtain rfl := Except.ok.inj (hclock.symm.trans hclock')
      rw [hgate', hstore] at hstore'
      simp at hstore'
  | recorded bundle now gate store receipt harming hclock hgate hstore hrecord =>
    cases h' with
    | unarmed harming' => simp [harming] at harming'
    | withheld _ now' _ hclock' hstore' =>
      obtain rfl := Except.ok.inj (hclock.symm.trans hclock')
      rw [← hgate, hstore] at hstore'
      simp at hstore'
    | recorded bundle' now' gate' store' receipt' harming' hclock' hgate' hstore' hrecord' =>
      obtain rfl := Option.some.inj (harming.symm.trans harming')
      obtain rfl := Except.ok.inj (hclock.symm.trans hclock')
      obtain rfl := hgate.trans hgate'.symm
      obtain rfl := Option.some.inj (hstore.symm.trans hstore')
      obtain rfl := Except.ok.inj (hrecord.symm.trans hrecord')
      exact ⟨rfl, rfl⟩

/-- **Arming a live call** asks only the clock and the interlock's store. -/
theorem effectiveArming_cases {r : Except PyExc (Option ModeBArming)}
    (hlive : inputs.request.mode = .liveGuarded)
    (h : (effectiveArming inputs sessionIdentity).exec w = (r, w')) :
    Unreserved w w' ∧
      ((∃ arming, r = .ok arming ∧
          InterlockBound inputs sessionIdentity w.lane.history arming w'.lane.history) ∨
        (∃ e, r = .error e) ∧ ∀ arming asked,
          ¬ InterlockBound inputs sessionIdentity w.lane.history arming asked) := by
  unfold effectiveArming at h
  cases harming : inputs.arming with
  | none =>
    simp only [harming] at h
    obtain ⟨rfl, rfl⟩ := Prod.mk.inj h
    exact ⟨Std.Refl.refl _, .inl ⟨none, rfl, .unarmed harming⟩⟩
  | some bundle =>
    simp only [harming, hlive, if_true] at h
    obtain ⟨e, hanswer, rfl, rfl⟩ | ⟨now, hanswer, h⟩ := exec_inLane_ask_cases h
    · refine ⟨unreserved_record rfl, .inr ⟨⟨e, rfl⟩, fun arming asked hbound => ?_⟩⟩
      cases hbound with
      | unarmed hnone => simp [harming] at hnone
      | withheld _ _ _ hok => simp [hanswer] at hok
      | recorded _ _ _ _ _ _ hok => simp [hanswer] at hok
    cases hstore : recordingStore inputs
        (evaluateOperatorInterlock inputs.operatorInterlock (now * 1000)) with
    | none =>
      simp only [hstore] at h
      obtain ⟨rfl, rfl⟩ := Prod.mk.inj h
      exact ⟨unreserved_record rfl, .inl ⟨none, rfl, .withheld bundle now harming hanswer hstore⟩⟩
    | some store =>
      simp only [hstore] at h
      obtain ⟨e, herr, rfl, rfl⟩ | ⟨receipt, hok, h⟩ := exec_inLane_ask_cases h
      · refine ⟨IsTrans.trans _ _ _ (unreserved_record rfl) (unreserved_record rfl), .inr ⟨⟨e, rfl⟩,
          fun arming asked hbound => ?_⟩⟩
        cases hbound with
        | unarmed hnone => simp [harming] at hnone
        | withheld _ now' _ hclock hnone =>
          obtain rfl := Except.ok.inj (hanswer.symm.trans hclock)
          simp [hstore] at hnone
        | recorded bundle' now' gate store' receipt' harming' hclock hgate hstore' hrecord =>
          obtain rfl := Except.ok.inj (hanswer.symm.trans hclock)
          obtain rfl := Option.some.inj (harming.symm.trans harming')
          subst hgate
          obtain rfl := Option.some.inj (hstore.symm.trans hstore')
          simp only [World.record_history] at herr
          exact absurd (hrecord.symm.trans herr) (by simp)
      · obtain ⟨rfl, rfl⟩ := Prod.mk.inj h
        refine ⟨IsTrans.trans _ _ _ (unreserved_record rfl) (unreserved_record rfl),
          .inl ⟨_, rfl, ?_⟩⟩
        have hbound : InterlockBound inputs sessionIdentity w.lane.history _ _ :=
          .recorded bundle now _ store receipt harming hanswer rfl hstore hok
        simpa using hbound

/-- The provider after a run that returned. -/
def ProposeInputs.settled (inputs : ProposeInputs) (provider : Provider)
    (events : List LifecycleEvent) : Provider :=
  match inputs.outage.settle with
  | some _ => provider
  | none => provider.settle inputs.attemptId (reconciliationOutcome events).1
      (reconciliationOutcome events).2

theorem settleAttempt_settled {provider : Provider} {result : DustExecutionResult}
    {r : Except PyExc Unit} (hw : w.provider = some provider)
    (h : (settleAttempt inputs result).exec w = (r, w')) :
    w'.lane = w.lane ∧ w'.provider = some (inputs.settled provider result.events) := by
  unfold settleAttempt at h
  rw [Prog.exec_bind_ok Prog.exec_get] at h
  simp only [hw] at h
  unfold ProposeInputs.settled
  cases hup : inputs.outage.settle with
  | some e =>
    simp only [hup] at h
    split_ifs at h
    · obtain ⟨-, rfl⟩ := Prod.mk.inj h
      exact ⟨rfl, hw⟩
    · obtain ⟨-, rfl⟩ := Prod.mk.inj h
      exact ⟨rfl, hw⟩
  | none =>
    simp only [hup] at h
    obtain ⟨-, rfl⟩ := Prod.mk.inj h
    exact ⟨rfl, rfl⟩

/-- **A call that holds its row** raises before it runs, or runs and settles what the run returns.
Nothing is asked after the run. -/
theorem runReserved_cases {provider : Provider} {state : DurableSessionState}
    {r : Except PyExc MMExecutionToolResult} (hlive : inputs.request.mode = .liveGuarded)
    (hw : w.provider = some provider) (h : (runReserved inputs (some state)).exec w = (r, w')) :
    (Unreserved w w' ∧ ∀ arming asked,
        ¬ InterlockBound inputs state.sessionIdentity w.lane.history arming asked) ∨
      ∃ arming u ran, InterlockBound inputs state.sessionIdentity w.lane.history arming u.history ∧
        Calls (fun call => call.isQuiet = true) w.lane u ∧
        (runDustExecution (inputs.runInputs (some state) arming)).exec u = (ran, w'.lane) ∧
        ((∃ e, ran = .error e ∧ w'.provider = some provider) ∨
          ∃ result, ran = .ok result ∧
            w'.provider = some (inputs.settled provider result.events)) := by
  unfold runReserved at h
  obtain ⟨e, harming, rfl⟩ | ⟨arming, t, harming, h⟩ := Prog.exec_bind_cases h
  · obtain ⟨hasked, ⟨_, hok, -⟩ | ⟨-, hnone⟩⟩ := effectiveArming_cases hlive harming
    · simp at hok
    · exact .inl ⟨hasked, hnone⟩
  obtain ⟨hasked, ⟨_, hok, hbound⟩ | ⟨⟨e, herr⟩, -⟩⟩ := effectiveArming_cases hlive harming
  · obtain rfl := Except.ok.inj hok
    refine .inr ⟨arming, t.lane, ?_⟩
    obtain ⟨e, hran, rfl⟩ | ⟨result, u, hran, h⟩ := Prog.exec_bind_cases h
    · rw [exec_inLane] at hran
      obtain ⟨herr, rfl⟩ := Prod.mk.inj hran
      exact ⟨.error e, hbound, hasked.1, Prod.ext herr rfl, .inl ⟨e, rfl, hasked.2.trans hw⟩⟩
    rw [exec_inLane] at hran
    obtain ⟨hok, rfl⟩ := Prod.mk.inj hran
    refine ⟨.ok result, hbound, hasked.1, ?_⟩
    obtain ⟨e, hsettle, rfl⟩ | ⟨_, v, hsettle, h⟩ := Prog.exec_bind_cases h
    · obtain ⟨hlane, hprovider⟩ := settleAttempt_settled (by exact hasked.2.trans hw) hsettle
      exact ⟨Prod.ext hok hlane.symm, .inr ⟨result, rfl, hprovider⟩⟩
    · obtain ⟨hlane, hprovider⟩ := settleAttempt_settled (by exact hasked.2.trans hw) hsettle
      obtain ⟨hlane', hprovider'⟩ := (aside_finish _ _ _).of_exec h
      exact ⟨Prod.ext hok (hlane'.trans hlane).symm, .inr ⟨result, rfl, hprovider'.trans hprovider⟩⟩
  · simp at herr

end Running

/-! ## The row of the attempt -/

/-- The run of a call returned `events`: it ran on the state loaded at the call's date and the bundle
the facade armed, and made the last calls of the call. -/
def RanWith (inputs : ProposeInputs) (w w' : FacadeWorld) (before : Provider)
    (events : List LifecycleEvent) : Prop :=
  ∃ now date state arming u result, AdmittedAt inputs w before now date ∧
    before.load inputs.request.sessionId date = .ok state ∧
    InterlockBound inputs inputs.request.sessionId (w.lane.history ++ [.now (.ok now)]) arming
      u.history ∧
    (runDustExecution (inputs.runInputs (some state) arming)).exec u = (.ok result, w'.lane) ∧
    result.events = events

/-- **What a call leaves of its reservation**, after its own calls `own`. -/
structure ReservationKept (inputs : ProposeInputs) (w w' : FacadeWorld) (before after : Provider)
    (own : List Call) : Prop where
  /-- An order was placed: the row is there, and resolved only if the run's events prove it. -/
  row : 0 < placedIn own → ∃ row, after.reservations.lookup inputs.attemptId = some row ∧
    (row.reconState = .resolved →
      ∃ events, RanWith inputs w w' before events ∧ ProvesResolved events)
  /-- The row is not there: no order was placed. -/
  released : after.reservations.lookup inputs.attemptId = none → placedIn own = 0
  /-- No row from before the call is touched. -/
  others : ∀ attemptId row, before.reservations.lookup attemptId = some row →
    after.reservations.lookup attemptId = some row

section Settled

variable {inputs : ProposeInputs} {w w' : FacadeWorld} {provider : Provider}

/-- A stream that acknowledges an order and holds no absence is never a release. -/
theorem reconciliationOutcome_ne_absent {events : List LifecycleEvent}
    (hsub : submittedDecisionIds events ≠ []) (hno : NoAbsence events) :
    (reconciliationOutcome events).1 ≠ .definitivelyAbsent := by
  intro hout
  rcases reconciliationOutcome_definitivelyAbsent hout with hnil | ⟨submitKeys, states, hjoin, hall⟩
  · exact hsub hnil
  · obtain ⟨decisionId, hmem⟩ := List.exists_mem_of_ne_nil _ hsub
    obtain ⟨key, state, -, hmatched, hstate⟩ := hjoin.decision hmem
    rw [hall state hstate] at hmatched
    have hin : UncertainState.definitivelyAbsent ∈ matchedStates events (decisionId, key) := by
      simp [hmatched]
    obtain ⟨event, hevent, hmatch⟩ := List.mem_filterMap.mp hin
    cases event with
    | realFillReconciliation e =>
      simp only [LifecycleEvent.reconciledState?] at hmatch
      split_ifs at hmatch
      exact hno e hevent (Option.some.inj hmatch)
    | _ => simp [LifecycleEvent.reconciledState?] at hmatch

/-- **The row of an attempt after its run** is the pending one, or carries the outcome, or is
released. -/
theorem settled_lookup (hrow : provider.reservations.lookup inputs.attemptId = some inputs.pendingRow)
    (events : List LifecycleEvent) :
    (inputs.settled provider events).reservations.lookup inputs.attemptId = some inputs.pendingRow ∨
      (∃ key, (inputs.settled provider events).reservations.lookup inputs.attemptId =
        some ⟨inputs.request.sessionId, (reconciliationOutcome events).1, key⟩) ∨
      (reconciliationOutcome events).1 = .definitivelyAbsent := by
  unfold ProposeInputs.settled
  cases inputs.outage.settle with
  | some e => exact .inl hrow
  | none =>
    rcases Provider.settle_cases hrow (reconciliationOutcome events).1
      (reconciliationOutcome events).2 with ⟨habsent, -⟩ | ⟨-, key, hsettle⟩
    · exact .inr (.inr habsent)
    · refine .inr (.inl ⟨key, ?_⟩)
      simp only [hsettle, Provider.withReservation]
      exact AList.lookup_insert _

theorem settled_lookup_ne {attemptId : String} (hne : attemptId ≠ inputs.attemptId)
    (events : List LifecycleEvent) :
    (inputs.settled provider events).reservations.lookup attemptId =
      provider.reservations.lookup attemptId := by
  unfold ProposeInputs.settled
  cases inputs.outage.settle with
  | some e => rfl
  | none => exact Provider.lookup_settle_ne hne _ _

/-- A call that placed no order and touched no row but its own keeps its reservation. -/
theorem ReservationKept.of_quiet {after : Provider} {own : List Call} (hplaced : placedIn own = 0)
    (hothers : ∀ attemptId row, provider.reservations.lookup attemptId = some row →
      after.reservations.lookup attemptId = some row) :
    ReservationKept inputs w w' provider after own :=
  ⟨fun hpos => absurd hplaced hpos.ne', fun _ => hplaced, hothers⟩

/-- A fresh row touches no other. -/
theorem lookup_withReservation_of_some {row : Reservation} {attemptId fresh : String}
    (pending : Reservation)
    (hfresh : provider.reservations.lookup fresh = none)
    (hrow : provider.reservations.lookup attemptId = some row) :
    attemptId ≠ fresh ∧
      (provider.withReservation fresh pending).reservations.lookup attemptId = some row := by
  have hne : attemptId ≠ fresh := by
    rintro rfl
    simp [hfresh] at hrow
  exact ⟨hne, (AList.lookup_insert_ne hne).trans hrow⟩

/-- **A live call on a provider.** Whatever the manifest, the request, the quotes and the venue are,
and whether the call returns or raises: once it placed an order its row is still there when it ends,
resolved only if the events of its run prove it; it releases its row only when it placed no order;
and it leaves every row from before it alone. -/
theorem proposeMMExecution_settled (inputs : ProposeInputs)
    (hlive : inputs.request.mode = .liveGuarded) (w : FacadeWorld) (provider : Provider)
    (hw : w.provider = some provider) :
    ∃ own after, ((proposeMMExecution inputs).exec w).2.lane.history = w.lane.history ++ own ∧
      ((proposeMMExecution inputs).exec w).2.provider = some after ∧
      ReservationKept inputs w ((proposeMMExecution inputs).exec w).2 provider after own := by
  rcases h : (proposeMMExecution inputs).exec w with ⟨r, w'⟩
  rcases proposeMMExecution_cases hlive hw h with ⟨⟨⟨new, hnew, hquiet⟩, hprovider⟩, -⟩ |
    ⟨now, date, state, u, hadmitted, hload, hulane, huprovider, h⟩
  · exact ⟨new, provider, hnew, hprovider.trans hw,
      .of_quiet (placedIn_quiet hquiet) fun _ _ => id⟩
  have hfresh := hadmitted.slot.fresh
  have hidentity : state.sessionIdentity = inputs.request.sessionId := (load_state hload).2.1
  rcases runReserved_cases hlive huprovider h with ⟨⟨⟨new, hnew, hquiet⟩, hprovider⟩, -⟩ |
    ⟨arming, v, ran, hbound, ⟨new, hnew, hquiet⟩, hran, hsettled⟩
  · refine ⟨.now (.ok now) :: new, _, by rw [hnew, hulane]; simp, hprovider.trans huprovider,
      .of_quiet ?_ fun _ _ hrow => (lookup_withReservation_of_some _ hfresh hrow).2⟩
    exact (List.countP_cons_of_neg (by simp [Call.isSubmit])).trans (placedIn_quiet hquiet)
  obtain ⟨own, hown, -, hcounts⟩ := runDustExecution_live hlive hran
  have hhistory : w'.lane.history = w.lane.history ++ (.now (.ok now) :: new ++ own) := by
    rw [hown, hnew, hulane]
    simp
  have hplaced : placedIn (.now (.ok now) :: new ++ own) = placedIn own := by
    rw [placedIn_append, placedIn_quiet, zero_add]
    intro call hcall
    rcases List.mem_cons.mp hcall with rfl | hcall
    · rfl
    · exact hquiet call hcall
  have hpending : (provider.withReservation inputs.attemptId inputs.pendingRow).reservations.lookup
      inputs.attemptId = some inputs.pendingRow := AList.lookup_insert _
  rcases hsettled with ⟨e, -, hprovider⟩ | ⟨result, rfl, hprovider⟩
  · refine ⟨_, _, hhistory, hprovider, fun _ => ⟨_, hpending, by simp [ProposeInputs.pendingRow]⟩,
      fun hnone => ?_, fun _ _ hrow => (lookup_withReservation_of_some _ hfresh hrow).2⟩
    simp [hpending] at hnone
  · obtain ⟨-, hacks, habsent⟩ := hcounts result rfl
    rw [hidentity, hulane, World.record_history] at hbound
    have hran : RanWith inputs w w' provider result.events :=
      ⟨now, date, state, arming, v, result, hadmitted, hload, hbound, hran, rfl⟩
    have hsubmitted (hpos : 0 < placedIn (.now (.ok now) :: new ++ own)) :
        (reconciliationOutcome result.events).1 ≠ .definitivelyAbsent := by
      rw [hplaced, ← hacks] at hpos
      exact reconciliationOutcome_ne_absent (List.ne_nil_of_length_pos hpos) habsent
    refine ⟨_, _, hhistory, hprovider, fun hpos => ?_, fun hnone => ?_, fun attemptId row hrow => ?_⟩
    · rcases settled_lookup hpending result.events with hrow | ⟨key, hrow⟩ | hreleased
      · exact ⟨_, hrow, by simp [ProposeInputs.pendingRow]⟩
      · exact ⟨_, hrow, fun hresolved => ⟨_, hran, provesResolved hresolved⟩⟩
      · exact absurd hreleased (hsubmitted hpos)
    · by_contra hpos
      rcases settled_lookup hpending result.events with hrow | ⟨key, hrow⟩ | hreleased
      · simp [hrow] at hnone
      · simp [hrow] at hnone
      · exact hsubmitted (Nat.pos_of_ne_zero hpos) hreleased
    · obtain ⟨hne, hkept⟩ := lookup_withReservation_of_some inputs.pendingRow hfresh hrow
      exact (settled_lookup_ne hne _).trans hkept

end Settled

/-! ## An armed call on fixed inputs -/

namespace ArmedCall

/-- Every precondition is satisfied, under a reference. -/
def operatorInterlock : OperatorInterlock where
  isolatedFundedWallet := true
  operatorJurisdictionComfort := true
  declaredMaxCapitalAtRisk := some (.fin 1)
  killSwitchReady := true
  firstOrderAuthorized := true
  operatorAuthorizationRef := some "operator"

/-- A call that arms. -/
def inputs (intentKind : IntentKind) : ProposeInputs where
  request := ArmedRun.request intentKind
  digests := ArmedRun.digests
  references := ⟨fun _ => "attempt", fun _ => "lifecycle"⟩
  seams := ArmedRun.seams "token"
  envelope := ArmedRun.envelope
  manifest := ArmedRun.manifest ["take", "cancel_all"]
  walletEquityAtDecision := .fin 100
  fixedFraction := .fin (1 / 100)
  arming := some ArmedRun.arming
  operatorInterlock := some operatorInterlock
  interlockStore := some ⟨fun _ _ => .ok "receipt", fun _ _ => .ok true⟩

/-- A provider with some rows, and nothing asked yet. -/
def start (provider : Provider) : FacadeWorld where
  lane := ArmedRun.start
  provider := some provider

end ArmedCall

/-- The armed call places its order, and its row is kept. -/
theorem proposeMMExecution_settled_armed :
    orderedTokens ((proposeMMExecution (ArmedCall.inputs .take)).exec
      (ArmedCall.start .new)).2.lane.history = ["token"] ∧
    ∃ own after, ((proposeMMExecution (ArmedCall.inputs .take)).exec
        (ArmedCall.start .new)).2.lane.history = (ArmedCall.start .new).lane.history ++ own ∧
      ((proposeMMExecution (ArmedCall.inputs .take)).exec (ArmedCall.start .new)).2.provider =
        some after ∧
      ReservationKept (ArmedCall.inputs .take) (ArmedCall.start .new)
        ((proposeMMExecution (ArmedCall.inputs .take)).exec (ArmedCall.start .new)).2 .new after
        own :=
  ⟨by decide +kernel, proposeMMExecution_settled _ rfl _ _ rfl⟩

end Veridex.DustExecution
