import Veridex.DustExecution.RunGates

/-!
# How often a run sweeps (`runner.py`)

Every stage of a run goes through the one primitive that sweeps, and the primitive does nothing on a
blocked session. So the account of a stage is a sum: the session is blocked after it exactly when it
was before or the stage swept, once (`OneSweep`). The relation is a preorder, and each stage keeps it
where the adapter can sweep.

Results: `runDustExecution_cancelAll`.
-/

namespace Veridex.DustExecution

open Veridex.Py Veridex.Policy Veridex.Lib

/-! ## The account -/

/-- The session is blocked exactly when it was before or was swept since, and it is swept at most
once. -/
def OneSweep (w w' : World) : Prop :=
  ∃ new, w'.history = w.history ++ new ∧
    w'.session.submitBlocked.toNat = w.session.submitBlocked.toNat + sweepsIn new

instance : Std.Refl OneSweep := ⟨fun _ => ⟨[], by simp [sweepsIn]⟩⟩

instance : IsTrans World OneSweep := ⟨fun _ _ _ ⟨new, h, hsum⟩ ⟨new', h', hsum'⟩ =>
  ⟨new ++ new', by rw [h', h, List.append_assoc], by rw [sweepsIn_append]; omega⟩⟩

section Account

variable {w w' : World} {seams : Seams} {inputs : RunInputs} {gates : RunGates}

theorem Quiet.oneSweep (h : Quiet w w') : OneSweep w w' := by
  obtain ⟨⟨new, hnew, hquiet⟩, hsession⟩ := h
  exact ⟨new, hnew, by rw [hsession, sweepsIn_quiet hquiet]; rfl⟩

theorem OneSweep.blockKept (h : OneSweep w w') : BlockKept w w' := by
  intro hb
  obtain ⟨new, -, hsum⟩ := h
  rw [hb] at hsum
  cases hb' : w'.session.submitBlocked with
  | true => rfl
  | false =>
    rw [hb'] at hsum
    simp only [Bool.toNat_false, Bool.toNat_true] at hsum
    omega

/-- The sweeps since a session that was not blocked. -/
theorem OneSweep.sweeps (h : OneSweep w w') (hopen : w.session.submitBlocked = false) :
    ∃ new, w'.history = w.history ++ new ∧
      sweepsIn new = if w'.session.submitBlocked then 1 else 0 := by
  obtain ⟨new, hnew, hsum⟩ := h
  refine ⟨new, hnew, ?_⟩
  rw [hopen] at hsum
  cases hb : w'.session.submitBlocked with
  | true =>
    rw [hb] at hsum
    simp only [Bool.toNat_true, Bool.toNat_false, if_true] at hsum ⊢
    omega
  | false =>
    rw [hb] at hsum
    simp only [Bool.toNat_false, Bool.false_eq_true, if_false] at hsum ⊢
    omega

/-! ## The stages -/

/-- **The primitive** sweeps an open session once, and leaves a blocked one alone. -/
theorem oneSweep_cancelAllAndBlock (cause : CancelAllCause) (sweep : Surface Unit ℤ) :
    Prog.Keeps OneSweep (cancelAllAndBlock seams cause sweep) := by
  intro w
  rcases h : (cancelAllAndBlock seams cause sweep).exec w with ⟨r, w'⟩
  unfold cancelAllAndBlock at h
  rw [Prog.exec_bind_ok Prog.exec_get] at h
  rcases cancelAllAndBlockEnter_cases (seams.clockMs w.history) cause w.session with
    ⟨ack, session, hentry, hb, hb', -⟩ | ⟨session, hentry, hopen, hb', -⟩
  · rw [hentry] at h
    obtain ⟨-, rfl⟩ := Prod.mk.inj h
    exact ⟨[], by simp, by simp [sweepsIn, hb, hb']⟩
  · rw [hentry] at h
    unfold finishCancelAll setSession at h
    rw [Prog.exec_bind_ok (Prog.exec_modify _)] at h
    obtain ⟨e, -, -, rfl⟩ | ⟨n, -, h⟩ := exec_ask_cases h
    · exact ⟨[_], rfl, by simp [hopen, hb', sweepsIn, Call.isSweep]⟩
    · obtain ⟨-, rfl⟩ := Prod.mk.inj h
      refine ⟨[_], rfl, ?_⟩
      rw [hopen, show ∀ b : Bool, b = true → b.toNat = 1 from fun b hb => by rw [hb]; rfl]
      · simp [sweepsIn, Call.isSweep]
      · exact hb'

/-- A trigger that fires on an adapter that can sweep leaves the session blocked. -/
theorem trigger_blocks {cause : CancelAllCause} {sweep : Surface Unit ℤ} {r : Except PyExc Unit}
    (hsweep : seams.adapter.cancelAllOrders = some sweep)
    (h : (trigger seams true cause).exec w = (r, w')) : w'.session.submitBlocked = true := by
  unfold trigger requireCancelAllAdapter at h
  simp only [if_true, hsweep] at h
  rw [Prog.exec_bind_ok (Prog.exec_pure sweep)] at h
  obtain ⟨e, hblock, -⟩ | ⟨ack, t, hblock, h⟩ := Prog.exec_bind_cases h
  · exact (cancelAllAndBlock_blocks hblock).2
  · obtain ⟨-, rfl⟩ := Prod.mk.inj h
    exact (cancelAllAndBlock_blocks hblock).2

/-- A trigger fires, whereupon the session is blocked, or it does nothing. -/
theorem trigger_cases {fires : Bool} {cause : CancelAllCause} {r : Except PyExc Unit}
    (hsweep : seams.adapter.cancelAllOrders.isSome = true)
    (h : (trigger seams fires cause).exec w = (r, w')) :
    (fires = true ∧ w'.session.submitBlocked = true) ∨ (fires = false ∧ r = .ok () ∧ w' = w) := by
  obtain ⟨sweep, hsweep⟩ := Option.isSome_iff_exists.mp hsweep
  cases fires with
  | true => exact .inl ⟨rfl, trigger_blocks hsweep h⟩
  | false =>
    obtain ⟨rfl, rfl⟩ := Prod.mk.inj h
    exact .inr ⟨rfl, rfl, rfl⟩

theorem oneSweep_trigger (fires : Bool) (cause : CancelAllCause) :
    Prog.Keeps OneSweep (trigger seams fires cause) :=
  keeps_trigger oneSweep_cancelAllAndBlock fires cause

theorem oneSweep_startupOpenOrderSweep {sweep : Surface Unit ℤ}
    (hsweep : seams.adapter.cancelAllOrders = some sweep) (enforce : Bool) :
    Prog.Keeps OneSweep (startupOpenOrderSweep seams enforce) := by
  unfold startupOpenOrderSweep blockOnUnknown
  refine Prog.keeps_bind ((quiet_readStartupOpenOrders _).mono fun _ _ => Quiet.oneSweep)
    fun orders => ?_
  cases orders with
  | none =>
    simp only [hsweep]
    split_ifs
    · refine Prog.keeps_bind ?_ fun _ => Prog.keeps_pure _
      exact Prog.keeps_bind (oneSweep_cancelAllAndBlock _ _) fun _ => Prog.keeps_pure _
    · exact Prog.keeps_pure _
  | some orders => exact Prog.keeps_bind (oneSweep_trigger _ _) fun _ => Prog.keeps_pure _

/-- A run that leaves its orders open ends without a sweep. -/
theorem quiet_closeRun (hpolicy : inputs.shutdownPolicy = .leaveOpen) :
    Prog.Keeps Quiet (closeRun inputs) := by
  unfold closeRun applyShutdownDecision
  simp only [hpolicy, reduceCtorEq, false_and, if_false]
  refine Prog.keeps_bind quiet_nextSeq fun seq => ?_
  refine Prog.keeps_bind (quiet_ask fun _ => rfl) fun now => ?_
  exact Prog.keeps_bind (Prog.keeps_pure _) fun _ => Prog.keeps_pure _

/-- **A blocked intent** walks the universe without a call. -/
theorem exec_runTokens_blocked {reason : AbstainReason}
    (hblocked : gates.intentBlockReason = some reason) :
    ∀ (tokenIds : List String) (ordersThisRun : ℕ), ∃ out,
      (runTokens inputs gates tokenIds ordersThisRun).exec w = (.ok out, w)
  | [], _ => ⟨_, rfl⟩
  | tokenId :: tokenIds, ordersThisRun => by
    have htoken : (decideAndSubmit inputs gates (inputs.orderCap ordersThisRun) tokenId).exec w =
        (.ok (abstain tokenId reason, []), w) := by
      simp [decideAndSubmit, preQuoteBlockReason, hblocked]
    obtain ⟨out, hrest⟩ := exec_runTokens_blocked hblocked tokenIds
      (if decisionPlaced (abstain tokenId reason) then ordersThisRun + 1 else ordersThisRun)
    exact ⟨_, by rw [runTokens, Prog.exec_bind_ok htoken, Prog.exec_bind_ok hrest]; rfl⟩

end Account

/-! ## Reaching the sweep -/

/-- The question the arming gate puts to the store, if it gets that far. -/
def interlockQuestion (inputs : RunInputs) :
    Option (OperatorInterlockStore × InterlockBinding × String) :=
  match inputs.arming with
  | none => none
  | some bundle =>
    if (technicalBlockReason inputs.digests bundle inputs.manifest inputs.envelope
        inputs.seams.signer).isSome then none
    else match bundle.operatorInterlock, inputs.operatorInterlockStore with
      | some proof, some store =>
        if interlockEventsAreCanonical proof.events then
          some (store, presentedBinding bundle proof inputs.startSession.sessionId,
            proof.recordingReceipt)
        else none
      | _, _ => none

/-- The store answers the arming gate, or is not asked; `asked` is the history then. -/
def InterlockAnswered (inputs : RunInputs) (history asked : List Call) : Prop :=
  match interlockQuestion inputs with
  | none => asked = history
  | some (store, binding, receipt) => ∃ verdict,
    store.verify history (binding, receipt) = .ok verdict ∧
      asked = history ++ [.verifyInterlock binding receipt (.ok verdict)]

/-- The open orders are read, or raise what the read swallows. -/
def BookRead (adapter : Adapter) (history : List Call) : Prop :=
  ∀ surface ∈ adapter.getOrders, ∀ e, surface history () = .error e → e.isException = true

/-- Nothing raises on the way to the intent's own sweep: the store answers, the size resolves, the
clock answers and the open orders are read. -/
def OpeningAnswered (inputs : RunInputs) (history : List Call) : Prop :=
  ∃ asked size now, InterlockAnswered inputs history asked ∧
    resolveWireSize inputs.manifest inputs.envelope inputs.walletEquityAtDecision
      inputs.fixedFraction = .ok size ∧
    inputs.seams.nowFn asked () = .ok now ∧
    BookRead inputs.seams.adapter (asked ++ [.now (.ok now)])

/-- **A run reaches its sweep**: its session meta can be built, and either the kill switch sweeps at
once or nothing raises on the way to the sweep. -/
structure ReachesSweep (inputs : RunInputs) (history : List Call) : Prop where
  /-- The number of orders is within the range of a `float`. -/
  meta_built : ∃ maxOrders, (Value.int inputs.manifest.maxOrders).toFloat = .ok maxOrders
  swept : inputs.envelope.killSwitch = true ∨ OpeningAnswered inputs history

/-- A live run of a `cancel_all` request that starts with an open session, as the facade starts
every run. -/
structure CancelAllRun (inputs : RunInputs) : Prop where
  live : inputs.mode = .liveGuarded
  intent : intentBlockReason inputs.request inputs.manifest = some .intentCancelAll
  sweeps : inputs.seams.adapter.cancelAllOrders.isSome = true
  session_open : inputs.startSession.submitBlocked = false
  breaker : inputs.breakerOpen = false
  fills : inputs.realizedFills = []
  shutdown : inputs.shutdownPolicy = .leaveOpen

section Reach

variable {inputs : RunInputs} {gates : RunGates} {risk : RiskAccumulator} {w w' : World}

theorem InterlockAnswered.unique {history asked asked' : List Call}
    (h : InterlockAnswered inputs history asked) (h' : InterlockAnswered inputs history asked') :
    asked = asked' := by
  unfold InterlockAnswered at h h'
  cases hquestion : interlockQuestion inputs with
  | none =>
    rw [hquestion] at h h'
    exact Eq.trans h (Eq.symm h')
  | some question =>
    rw [hquestion] at h h'
    obtain ⟨verdict, hverdict, rfl⟩ := h
    obtain ⟨verdict', hverdict', rfl⟩ := h'
    obtain rfl := Except.ok.inj (hverdict.symm.trans hverdict')
    rfl

/-- **The arming gate of a live run** asks its question, or decides without one. -/
theorem armingBlockReason_eq (hlive : inputs.mode = .liveGuarded) :
    ∃ withheld, armingBlockReason inputs inputs.startSession.sessionId =
      match interlockQuestion inputs with
      | none => pure (some withheld)
      | some (store, binding, receipt) => do
        let verified ← ask store.verify (binding, receipt) (.verifyInterlock binding receipt)
        if verified then return none else return some .operatorInterlockUnproven := by
  simp only [armingBlockReason, hlive]
  unfold modeBArmingBlockReason interlockQuestion
  cases inputs.arming with
  | none => exact ⟨_, rfl⟩
  | some bundle =>
    cases htech : technicalBlockReason inputs.digests bundle inputs.manifest inputs.envelope
        inputs.seams.signer with
    | some reason => exact ⟨reason, by simp [htech]⟩
    | none =>
      refine ⟨.operatorInterlockUnproven, ?_⟩
      simp only [htech, Option.isSome_none, Bool.false_eq_true, if_false]
      cases bundle.operatorInterlock with
      | none => rfl
      | some proof =>
        cases inputs.operatorInterlockStore with
        | none => rfl
        | some store => cases hc : interlockEventsAreCanonical proof.events <;> simp [hc]

theorem armingBlockReason_answered (hlive : inputs.mode = .liveGuarded)
    {r : Except PyExc (Option AbstainReason)}
    (h : (armingBlockReason inputs inputs.startSession.sessionId).exec w = (r, w')) :
    (∃ reason, r = .ok reason ∧ InterlockAnswered inputs w.history w'.history) ∨
      (∃ e, r = .error e) ∧ ∀ asked, ¬ InterlockAnswered inputs w.history asked := by
  obtain ⟨withheld, harming⟩ := armingBlockReason_eq hlive
  rw [harming] at h
  unfold InterlockAnswered
  cases hquestion : interlockQuestion inputs with
  | none =>
    rw [hquestion] at h
    obtain ⟨rfl, rfl⟩ := Prod.mk.inj h
    exact .inl ⟨_, rfl, rfl⟩
  | some question =>
    obtain ⟨store, binding, receipt⟩ := question
    rw [hquestion] at h
    obtain ⟨e, herr, rfl, -⟩ | ⟨verdict, hanswer, h⟩ := exec_ask_cases h
    · refine .inr ⟨⟨e, rfl⟩, ?_⟩
      rintro asked ⟨verdict, hverdict, -⟩
      simp [hverdict] at herr
    · refine .inl ?_
      cases verdict with
      | true =>
        obtain ⟨rfl, rfl⟩ := Prod.mk.inj h
        exact ⟨_, rfl, true, hanswer, rfl⟩
      | false =>
        obtain ⟨rfl, rfl⟩ := Prod.mk.inj h
        exact ⟨_, rfl, false, hanswer, rfl⟩

/-- **The gates of a live run are decided** when the store answers and the size resolves. -/
theorem decideGates_answered {admission : StrategyAuthorizationDecision}
    (hlive : inputs.mode = .liveGuarded) {r : Except PyExc RunGates}
    (h : (decideGates inputs risk admission).exec w = (r, w')) :
    (∃ gates size, r = .ok gates ∧ InterlockAnswered inputs w.history w'.history ∧
      resolveWireSize inputs.manifest inputs.envelope inputs.walletEquityAtDecision
        inputs.fixedFraction = .ok size) ∨
    (∃ e, r = .error e) ∧ ∀ asked size, ¬ (InterlockAnswered inputs w.history asked ∧
      resolveWireSize inputs.manifest inputs.envelope inputs.walletEquityAtDecision
        inputs.fixedFraction = .ok size) := by
  unfold decideGates at h
  obtain ⟨e, harming, rfl⟩ | ⟨reason, t, harming, h⟩ := Prog.exec_bind_cases h
  · rcases armingBlockReason_answered hlive harming with ⟨reason, hok, -⟩ | ⟨-, hnot⟩
    · simp at hok
    · exact .inr ⟨⟨e, rfl⟩, fun asked size hboth => hnot asked hboth.1⟩
  rcases armingBlockReason_answered hlive harming with ⟨_, -, hanswered⟩ | ⟨⟨e, herr⟩, -⟩
  · obtain ⟨e, hsize, rfl, -⟩ | ⟨size, hsize, h⟩ := Prog.exec_ofExcept_cases h
    · refine .inr ⟨⟨e, rfl⟩, ?_⟩
      rintro asked size ⟨-, hok⟩
      simp [hok] at hsize
    · obtain ⟨rfl, rfl⟩ := Prod.mk.inj h
      exact .inl ⟨_, size, rfl, hanswered, hsize⟩
  · simp at herr

/-- The startup read is quiet, and raises exactly where the book is not read. -/
theorem readStartupOpenOrders_bookRead {adapter : Adapter} {r : Except PyExc (Option (List Value))}
    (h : (readStartupOpenOrders adapter).exec w = (r, w')) :
    (∃ orders, r = .ok orders) ↔ BookRead adapter w.history := by
  unfold readStartupOpenOrders at h
  rw [Prog.exec_bind, exec_readSurface] at h
  unfold BookRead
  cases hsurface : adapter.getOrders with
  | none =>
    simp only [hsurface, Option.map_none, guarded] at h
    obtain ⟨rfl, -⟩ := Prod.mk.inj h
    simp
  | some surface =>
    simp only [hsurface, Option.map_some] at h
    cases hanswer : surface w.history () with
    | ok answer =>
      simp only [hanswer, guarded] at h
      cases answer <;> (obtain ⟨rfl, -⟩ := Prod.mk.inj h; simp [hanswer])
    | error e =>
      simp only [hanswer, guarded] at h
      split_ifs at h with hexc
      · obtain ⟨rfl, -⟩ := Prod.mk.inj h
        simp [hanswer, hexc]
      · obtain ⟨rfl, -⟩ := Prod.mk.inj h
        simp [hanswer, hexc]

/-- **The startup sweep** raises on a book that is not read; else it returns or has blocked. -/
theorem startupOpenOrderSweep_cases {seams : Seams} {enforce : Bool} {r : Except PyExc ℤ}
    (hsweep : seams.adapter.cancelAllOrders.isSome = true)
    (h : (startupOpenOrderSweep seams enforce).exec w = (r, w')) :
    (¬ BookRead seams.adapter w.history ∧ (∃ e, r = .error e) ∧ SessionKept w w') ∨
      BookRead seams.adapter w.history ∧
        ((∃ count, r = .ok count) ∨ w'.session.submitBlocked = true) := by
  obtain ⟨sweep, hsweep⟩ := Option.isSome_iff_exists.mp hsweep
  unfold startupOpenOrderSweep at h
  obtain ⟨e, hread, rfl⟩ | ⟨orders, t, hread, h⟩ := Prog.exec_bind_cases h
  · refine .inl ⟨fun hbook => ?_, ⟨e, rfl⟩, ((quiet_readStartupOpenOrders _).of_exec hread).2⟩
    obtain ⟨orders, horders⟩ := (readStartupOpenOrders_bookRead hread).mpr hbook
    simp at horders
  · refine .inr ⟨(readStartupOpenOrders_bookRead hread).mp ⟨orders, rfl⟩, ?_⟩
    cases orders with
    | none =>
      cases enforce with
      | false =>
        obtain ⟨rfl, -⟩ := Prod.mk.inj h
        exact .inl ⟨_, rfl⟩
      | true =>
        simp only [if_true] at h
        obtain ⟨e, hblock, -⟩ | ⟨_, u, hblock, h⟩ := Prog.exec_bind_cases h
        · exact .inr (blockOnUnknown_blocks hblock)
        · obtain ⟨-, rfl⟩ := Prod.mk.inj h
          exact .inr (blockOnUnknown_blocks hblock)
    | some orders =>
      obtain ⟨e, htrigger, rfl⟩ | ⟨_, u, htrigger, h⟩ := Prog.exec_bind_cases h
      · cases hfires : enforce && decide (0 < orders.length) with
        | false =>
          rw [hfires] at htrigger
          simp [trigger] at htrigger
        | true =>
          rw [hfires] at htrigger
          exact .inr (trigger_blocks hsweep htrigger)
      · obtain ⟨rfl, -⟩ := Prod.mk.inj h
        exact .inl ⟨_, rfl⟩

/-- **The opening of a run whose intent is to cancel all** blocks the session exactly when the clock
answers and the book is read. -/
theorem openRun_cancelAll {r : Except PyExc LifecycleEvent} (hlive : inputs.mode = .liveGuarded)
    (hintent : gates.intentBlockReason = some .intentCancelAll)
    (hsweep : inputs.seams.adapter.cancelAllOrders.isSome = true)
    (h : (openRun inputs risk gates).exec w = (r, w'))
    (hopen : w.session.submitBlocked = false) : w'.session.submitBlocked = true ↔
      ∃ now, inputs.seams.nowFn w.history () = .ok now ∧
        BookRead inputs.seams.adapter (w.history ++ [.now (.ok now)]) := by
  unfold openRun at h
  rw [Prog.exec_bind_ok (exec_nextSeq w)] at h
  obtain ⟨e, hanswer, rfl, rfl⟩ | ⟨now, hanswer, h⟩ := exec_ask_cases h
  · simp only at hanswer
    simp [hopen, hanswer]
  simp only at hanswer
  have hbook : (∃ now, inputs.seams.nowFn w.history () = .ok now ∧
      BookRead inputs.seams.adapter (w.history ++ [.now (.ok now)])) ↔
      BookRead inputs.seams.adapter (w.history ++ [.now (.ok now)]) := by
    simp [hanswer]
  rw [hbook]
  simp only [hintent, hlive, decide_true, Bool.and_self] at h
  obtain ⟨e, hstartup, rfl⟩ | ⟨count, t, hstartup, h⟩ := Prog.exec_bind_cases h
  · rcases startupOpenOrderSweep_cases hsweep hstartup with ⟨hnot, -, hkept⟩ | ⟨hread, hblocked⟩
    · refine iff_of_false (fun hblocked => ?_) hnot
      rw [hkept] at hblocked
      exact absurd (hopen.symm.trans hblocked) Bool.false_ne_true
    · exact iff_of_true (hblocked.resolve_left (by simp)) hread
  · have hread : BookRead inputs.seams.adapter (w.history ++ [.now (.ok now)]) := by
      rcases startupOpenOrderSweep_cases hsweep hstartup with ⟨-, ⟨e, herr⟩, -⟩ | ⟨hread, -⟩
      · simp at herr
      · exact hread
    obtain ⟨sweep, hsweep⟩ := Option.isSome_iff_exists.mp hsweep
    have hblocked : w'.session.submitBlocked = true := by
      obtain ⟨e, htrigger, -⟩ | ⟨_, u, htrigger, h⟩ := Prog.exec_bind_cases h
      · exact trigger_blocks hsweep htrigger
      · obtain ⟨-, rfl⟩ := Prod.mk.inj h
        exact trigger_blocks hsweep htrigger
    exact iff_of_true hblocked hread

theorem oneSweep_openRun (hsweep : inputs.seams.adapter.cancelAllOrders.isSome = true) :
    Prog.Keeps OneSweep (openRun inputs risk gates) := by
  obtain ⟨sweep, hsweep⟩ := Option.isSome_iff_exists.mp hsweep
  unfold openRun
  refine Prog.keeps_bind (quiet_nextSeq.mono fun _ _ => Quiet.oneSweep) fun seq => ?_
  refine Prog.keeps_bind
    ((quiet_ask fun _ => rfl : Prog.Keeps Quiet (nowS inputs.seams)).mono fun _ _ => Quiet.oneSweep)
    fun now => ?_
  refine Prog.keeps_bind (oneSweep_startupOpenOrderSweep hsweep _) fun _ => ?_
  exact Prog.keeps_bind (oneSweep_trigger _ _) fun _ => Prog.keeps_pure _

/-- The triggers of a run without fills and without a breaker: the kill switch alone. -/
theorem applySafetyTriggers_killSwitch (hfills : inputs.realizedFills = [])
    (hbreaker : inputs.breakerOpen = false) :
    applySafetyTriggers inputs risk = do
      trigger inputs.seams inputs.envelope.killSwitch .killSwitch
      return risk := by
  unfold applySafetyTriggers
  rw [hfills, hbreaker]
  rfl

/-! ## The whole run -/

/-- Calls whose orders would all pass an impossible gate hold no order. -/
theorem OrdersPass.placedIn_eq_zero {G : List Call → WireOrder → Prop} {calls : List Call}
    (h : OrdersPass G calls) (hG : ∀ pre order, ¬ G pre order) : placedIn calls = 0 := by
  refine List.countP_eq_zero.mpr fun call hcall hsubmit => ?_
  obtain ⟨pre, post, rfl⟩ := List.append_of_mem hcall
  cases call with
  | submitOrder order answer => exact hG _ _ (h pre _ post rfl order answer rfl)
  | _ => simp [Call.isSubmit] at hsubmit

/-- A run that is to cancel all places no order. -/
theorem CancelAllRun.placedIn_eq_zero {r : Except PyExc DustExecutionResult}
    (hrun : CancelAllRun inputs) (h : (runDustExecution inputs).exec w = (r, w')) :
    ∃ own, w'.history = w.history ++ own ∧ placedIn own = 0 := by
  obtain ⟨own, hown, hpasses, -⟩ := runDustExecution_live hrun.live h
  refine ⟨own, hown, hpasses.placedIn_eq_zero ?_⟩
  rintro pre order ⟨bundle, proof, now, loop, risk, -, -, -, hsession, -⟩
  have hnone := intentBlockReason_none.mpr hsession.intent
  simp [hrun.intent] at hnone

/-- The kill switch blocks the session, or the triggers leave the run as it was. -/
theorem CancelAllRun.applySafetyTriggers_cases {r : Except PyExc RiskAccumulator}
    (hrun : CancelAllRun inputs) (h : (applySafetyTriggers inputs risk).exec w = (r, w')) :
    OneSweep w w' ∧
      ((inputs.envelope.killSwitch = true ∧ w'.session.submitBlocked = true) ∨
        (inputs.envelope.killSwitch = false ∧ r = .ok risk ∧ w' = w)) := by
  rw [applySafetyTriggers_killSwitch hrun.fills hrun.breaker] at h
  obtain ⟨e, htrigger, rfl⟩ | ⟨_, t, htrigger, h⟩ := Prog.exec_bind_cases h
  · refine ⟨(oneSweep_trigger _ _).of_exec htrigger, ?_⟩
    rcases trigger_cases hrun.sweeps htrigger with hfires | ⟨-, herr, -⟩
    · exact .inl hfires
    · simp at herr
  · obtain ⟨rfl, rfl⟩ := Prod.mk.inj h
    refine ⟨(oneSweep_trigger _ _).of_exec htrigger, ?_⟩
    rcases trigger_cases hrun.sweeps htrigger with hfires | ⟨hnot, -, rfl⟩
    · exact .inl hfires
    · exact .inr ⟨hnot, rfl, rfl⟩

/-- **The opening after decided gates** blocks an open session exactly when every question on the way
was answered. -/
theorem CancelAllRun.openRun_blocked {admission : StrategyAuthorizationDecision} {u v : World}
    {opened : Except PyExc LifecycleEvent} (hrun : CancelAllRun inputs)
    (hsession : w.session.submitBlocked = false)
    (hdecide : (decideGates inputs risk admission).exec w = (.ok gates, u))
    (hopen : (openRun inputs risk gates).exec u = (opened, v)) :
    v.session.submitBlocked = true ↔ OpeningAnswered inputs w.history := by
  have hquiet := (quiet_decideGates _).of_exec hdecide
  have huopen : u.session.submitBlocked = false := by rw [hquiet.2, hsession]
  have hintent : gates.intentBlockReason = some .intentCancelAll :=
    (decideGates_ok hdecide).1.intent.trans hrun.intent
  rcases decideGates_answered hrun.live hdecide with ⟨_, size, -, hanswered, hsize⟩ |
    ⟨⟨e, herr⟩, -⟩
  · rw [openRun_cancelAll hrun.live hintent hrun.sweeps hopen huopen]
    constructor
    · rintro ⟨now, hclock, hbook⟩
      exact ⟨u.history, size, now, hanswered, hsize, hclock, hbook⟩
    · rintro ⟨asked, size, now, hanswered', -, hclock, hbook⟩
      obtain rfl := hanswered'.unique hanswered
      exact ⟨now, hclock, hbook⟩
  · simp at herr

/-- **A run that is to cancel all** sweeps exactly once when it reaches its sweep, and else not at
all. It places no order. -/
theorem runDustExecution_cancelAll {r : Except PyExc DustExecutionResult}
    (hrun : CancelAllRun inputs) (h : (runDustExecution inputs).exec w = (r, w')) :
    ∃ own, w'.history = w.history ++ own ∧ placedIn own = 0 ∧
      sweepsIn own ≤ 1 ∧ (sweepsIn own = 1 ↔ ReachesSweep inputs w.history) := by
  obtain ⟨own, hown, hplaced⟩ := hrun.placedIn_eq_zero h
  refine ⟨own, hown, hplaced, ?_⟩
  unfold runDustExecution at h
  obtain ⟨e, hmeta, rfl, rfl⟩ | ⟨sessionMeta, hmeta, h⟩ := Prog.exec_ofExcept_cases h
  · obtain rfl : own = [] := by simpa using hown
    refine ⟨by simp [sweepsIn], ?_⟩
    simp only [sweepsIn, List.countP_nil, zero_ne_one, false_iff]
    rintro ⟨hbuilt, -⟩
    obtain ⟨sessionMeta, hok⟩ := exists_buildSessionMeta.mpr hbuilt
    simp [hok] at hmeta
  have hbuilt := exists_buildSessionMeta.mp ⟨sessionMeta, hmeta⟩
  rw [startRun, Prog.exec_bind_ok (Prog.exec_modify _)] at h
  let start : World := { w with session := inputs.startSession, nextSeq := 1 }
  -- everything is read off whether the session is blocked at the end
  suffices hstages : OneSweep start w' ∧
      (w'.session.submitBlocked = true ↔
        (inputs.envelope.killSwitch = true ∨ OpeningAnswered inputs w.history)) by
    obtain ⟨hone, hblocked⟩ := hstages
    obtain ⟨own', hown', hsweeps⟩ := hone.sweeps hrun.session_open
    obtain rfl : own = own' := List.append_cancel_left (hown.symm.trans hown')
    rw [hsweeps]
    constructor
    · split_ifs <;> simp
    · rw [show ReachesSweep inputs w.history ↔ w'.session.submitBlocked = true from
        ⟨fun hreach => hblocked.mpr hreach.swept, fun hb => ⟨hbuilt, hblocked.mp hb⟩⟩]
      cases w'.session.submitBlocked <;> simp
  obtain ⟨e, htriggers, rfl⟩ | ⟨risk, t, htriggers, h⟩ := Prog.exec_bind_cases h
  · obtain ⟨hone, ⟨hfires, hblocked⟩ | ⟨-, herr, -⟩⟩ := hrun.applySafetyTriggers_cases htriggers
    · exact ⟨hone, iff_of_true hblocked (.inl hfires)⟩
    · simp at herr
  obtain ⟨htone, ht⟩ := hrun.applySafetyTriggers_cases htriggers
  obtain ⟨e, hdecide, rfl⟩ | ⟨gates, u, hdecide, h⟩ := Prog.exec_bind_cases h
  · have hquiet := (quiet_decideGates _).of_exec hdecide
    refine ⟨IsTrans.trans _ _ _ htone hquiet.oneSweep, ?_⟩
    rw [hquiet.2]
    rcases ht with ⟨hfires, hblocked⟩ | ⟨hnot, -, rfl⟩
    · exact iff_of_true hblocked (.inl hfires)
    · refine iff_of_false (by simp [hrun.session_open]) ?_
      rcases decideGates_answered hrun.live hdecide with ⟨_, _, hok, -⟩ | ⟨-, hnone⟩
      · simp at hok
      · rintro (hfires | ⟨asked, size, now, hanswered, hsize, -⟩)
        · simp [hnot] at hfires
        · exact hnone asked size ⟨hanswered, hsize⟩
  have hquiet := (quiet_decideGates _).of_exec hdecide
  have hintent : gates.intentBlockReason = some .intentCancelAll :=
    (decideGates_ok hdecide).1.intent.trans hrun.intent
  have hopened {v : World} {opened : Except PyExc LifecycleEvent}
      (hopen : (openRun inputs risk gates).exec u = (opened, v)) : OneSweep start v ∧
      (v.session.submitBlocked = true ↔
        (inputs.envelope.killSwitch = true ∨ OpeningAnswered inputs w.history)) := by
    have hv := (oneSweep_openRun hrun.sweeps).of_exec hopen
    refine ⟨IsTrans.trans _ _ _ (IsTrans.trans _ _ _ htone hquiet.oneSweep) hv, ?_⟩
    rcases ht with ⟨hfires, hblocked⟩ | ⟨hnot, -, rfl⟩
    · have hublocked : u.session.submitBlocked = true := by rw [hquiet.2, hblocked]
      exact iff_of_true (hv.blockKept hublocked) (.inl hfires)
    · rw [hrun.openRun_blocked hrun.session_open hdecide hopen, hnot]
      simp
  obtain ⟨e, hopen, rfl⟩ | ⟨snapshot, v, hopen, h⟩ := Prog.exec_bind_cases h
  · exact hopened hopen
  obtain ⟨hv, hreach⟩ := hopened hopen
  obtain ⟨out, htokens⟩ : ∃ out, (runTokens inputs _ inputs.manifest.tokenUniverse 0).exec v =
      (.ok out, v) := exec_runTokens_blocked hintent _ _
  rw [Prog.exec_bind_ok htokens] at h
  have hclosed : Quiet v w' := by
    obtain ⟨e, hclose, -⟩ | ⟨_, x, hclose, h⟩ := Prog.exec_bind_cases h
    · exact (quiet_closeRun hrun.shutdown).of_exec hclose
    · obtain ⟨-, rfl⟩ := Prod.mk.inj h
      exact (quiet_closeRun hrun.shutdown).of_exec hclose
  refine ⟨IsTrans.trans _ _ _ hv hclosed.oneSweep, ?_⟩
  rw [hclosed.2]
  exact hreach

end Reach

end Veridex.DustExecution
