import Veridex.DustExecution.Runner
import Veridex.Lib.Trace

/-!
# What one token of a live run does

A token of a live run either abstains, having called neither the write port nor the sweep, or
passes every gate and places one order (`decideAndSubmit_live`). `TokenGates` is what it passed:
the gates decided for the run, and those it checked on the quote it had just read, at the price
and side that reach the wire.

`runTokens_live` walks the universe: by induction on the tokens, every order of the loop passed its
gates, with the order caps counted over the orders placed before it in the run.
-/

namespace Veridex.DustExecution

open Veridex.Py Veridex.Lib

/-! ## A token that abstains, a token that acts -/

/-- No reconciliation of the stream concludes that an order is absent. -/
def NoAbsence (events : List LifecycleEvent) : Prop :=
  ∀ e, LifecycleEvent.realFillReconciliation e ∈ events → e.reconciledState ≠ .definitivelyAbsent

/-- What an abstaining token returns. -/
structure Idle (out : SubmitDecision × List LifecycleEvent) : Prop where
  not_submitted : out.1.submitted = false
  not_placed : decisionPlaced out.1 = false
  not_acknowledged : submittedDecisionIds out.2 = []
  noAbsence : NoAbsence out.2

/-- What a token that placed an order returns. -/
structure Acted (out : SubmitDecision × List LifecycleEvent) : Prop where
  submitted : out.1.submitted = true
  acknowledged : (submittedDecisionIds out.2).length = 1
  noAbsence : NoAbsence out.2

/-- A token abstains, or places one order that `G` holds of after the calls it made before it. -/
def TokenRun (G : List Call → WireOrder → Prop) (w w' : World)
    (r : Except PyExc (SubmitDecision × List LifecycleEvent)) : Prop :=
  (Quiet w w' ∧ ∀ out, r = .ok out → Idle out) ∨
    ∃ order before, Places order before w w' ∧ G before order ∧ ∀ out, r = .ok out → Acted out

theorem idle_abstain (tokenId : String) {reason : AbstainReason} {events : List LifecycleEvent}
    (hreason : reason ≠ .modeANoOrders) (hids : submittedDecisionIds events = [])
    (habsent : NoAbsence events) : Idle (abstain tokenId reason, events) :=
  ⟨rfl, by simp [decisionPlaced, abstain, hreason], hids, habsent⟩

theorem noAbsence_nil : NoAbsence [] := by
  intro e he
  simp at he

theorem noAbsence_append {events events' : List LifecycleEvent} :
    NoAbsence (events ++ events') ↔ NoAbsence events ∧ NoAbsence events' := by
  simp only [NoAbsence, List.mem_append, or_imp, forall_and]

namespace TokenRun

variable {G G' : List Call → WireOrder → Prop} {w w' u : World}
  {r : Except PyExc (SubmitDecision × List LifecycleEvent)}

theorem mono (h : TokenRun G w w' r) (hG : ∀ before order, G before order → G' before order) :
    TokenRun G' w w' r :=
  h.imp id fun ⟨order, before, hplaces, hgates, hout⟩ =>
    ⟨order, before, hplaces, hG before order hgates, hout⟩

/-- What is quiet before a token's run is part of it. -/
theorem of_quiet (hpre : Quiet w u)
    (h : ∀ pre, u.history = w.history ++ pre →
      TokenRun (fun before order => G (pre ++ before) order) u w' r) : TokenRun G w w' r := by
  obtain ⟨pre, hu, -⟩ := hpre.1
  rcases h pre hu with ⟨hquiet, hout⟩ | ⟨order, before, hplaces, hgates, hout⟩
  · exact .inl ⟨IsTrans.trans _ _ _ hpre hquiet, hout⟩
  · obtain ⟨pre', hu', hplaces⟩ := hplaces.of_quiet hpre
    obtain rfl : pre = pre' := List.append_cancel_left (hu.symm.trans hu')
    exact .inr ⟨order, pre ++ before, hplaces, hgates, hout⟩

theorem abstained (tokenId : String) {reason : AbstainReason} (hreason : reason ≠ .modeANoOrders)
    (h : Quiet w w') : TokenRun G w w' (.ok (abstain tokenId reason, [])) :=
  .inl ⟨h, fun _ hout => Except.ok.inj hout ▸
    idle_abstain tokenId hreason rfl noAbsence_nil⟩

theorem raised {e : PyExc} (h : Quiet w w') : TokenRun G w w' (.error e) :=
  .inl ⟨h, fun out hout => by simp at hout⟩

end TokenRun

/-! ## The lifecycles -/

section Lifecycles

variable {ctx : LifecycleContext} {order : LifecycleOrder} {w w' : World}
  {r : Except PyExc (SubmitDecision × List LifecycleEvent)}

/-- The wire order of a lifecycle's order. -/
def LifecycleOrder.IsWire (order : LifecycleOrder) (tickSize : PyFloat) (wire : WireOrder) : Prop :=
  ∃ arming auth, wire = order.wire tickSize arming auth

/-- A verdict is never an absence. -/
theorem assessed_ne_definitivelyAbsent {adapter : Adapter} {presubmit : PreSubmitRecord}
    {verdict : UncertainSubmitVerdict}
    (h : ((assessUncertainSubmit adapter presubmit).exec w).1 = .ok verdict) :
    verdict.state ≠ .definitivelyAbsent := by
  rw [exec_assessUncertainSubmit] at h
  split_ifs at h
  · rw [← Except.ok.inj h]
    simp
  · exact assess_ne_definitivelyAbsent h

theorem Acted.of_records {decision : SubmitDecision} {life : OrderLifecycle} {wire : WireOrder}
    (h : RecordsPlaced ctx order wire w (decision, life)) : Acted (decision, life.events) := by
  obtain ⟨hsubmitted, result, u, verdict, -, hassess, hrecords⟩ := h
  refine ⟨hsubmitted, ?_, ?_⟩
  · simp [submittedDecisionIds, OrderLifecycle.events, LifecycleEvent.submittedDecisionId?,
      List.filterMap_cons, show life.ack.ackStatus ≠ .dryRunNotSubmitted from hrecords.ack_live]
  · intro e he
    obtain rfl : e = life.reconciliation := by simpa [OrderLifecycle.events] using he
    have hstate := assessed_ne_definitivelyAbsent hassess
    rw [hrecords.reconciliation_state]
    cases hs : verdict.state <;> simp_all [reconciledState]

/-- A live lifecycle, as a token returns it. -/
theorem emitLifecycle_run (hmode : ctx.mode = .liveGuarded)
    (h : (do
      let (decision, life) ← emitLifecycle ctx order
      return (decision, life.events) : Lane _).exec w = (r, w')) :
    TokenRun (fun _ wire => order.IsWire ctx.tickSize wire) w w' r := by
  obtain ⟨e, hlife, rfl⟩ | ⟨⟨decision, life⟩, t, hlife, h⟩ := Prog.exec_bind_cases h
  · rcases emitLifecycle_live hmode hlife with ⟨arming, auth, -, hplaces, -⟩ | ⟨-, hquiet, -⟩
    · exact .inr ⟨_, [], hplaces, ⟨arming, auth, rfl⟩, by simp⟩
    · exact .raised hquiet
  · obtain ⟨rfl, rfl⟩ := Prod.mk.inj h
    rcases emitLifecycle_live hmode hlife with ⟨arming, auth, -, hplaces, hout⟩ | ⟨-, -, e, he⟩
    · refine .inr ⟨_, [], hplaces, ⟨arming, auth, rfl⟩, ?_⟩
      rintro out hok
      rw [← Except.ok.inj hok]
      exact .of_records (hout _ rfl)
    · simp at he

theorem emitOrderLifecycle_run {manifest : StrategyExperimentManifest} {quote : DustQuote}
    {bid ask : BookSide} {side : Side} {tif : TimeInForce} {wireSize : ℚ}
    (hmode : ctx.mode = .liveGuarded) (hbid : quote.bid = some bid) (hask : quote.ask = some ask)
    (h : (emitOrderLifecycle ctx manifest quote side tif wireSize).exec w = (r, w')) :
    TokenRun (fun _ wire =>
      (takerOrder manifest quote bid ask side tif wireSize).IsWire ctx.tickSize wire) w w' r := by
  unfold emitOrderLifecycle at h
  rw [hbid, hask] at h
  exact emitLifecycle_run hmode h

/-- A cancel event in front of a token's stream changes nothing that is counted. -/
theorem Acted.cons_cancel {decision : SubmitDecision} {events : List LifecycleEvent}
    {e : OrderCancelEvent} (h : Acted (decision, events)) :
    Acted (decision, .orderCancelEvent e :: events) := by
  refine ⟨h.submitted, h.acknowledged, ?_⟩
  intro e' he'
  exact h.noAbsence e' (by simpa using he')

theorem Idle.cons_cancel {decision : SubmitDecision} {events : List LifecycleEvent}
    {e : OrderCancelEvent} (h : Idle (decision, events)) :
    Idle (decision, .orderCancelEvent e :: events) := by
  refine ⟨h.not_submitted, h.not_placed, h.not_acknowledged, ?_⟩
  intro e' he'
  exact h.noAbsence e' (by simpa using he')

theorem emitCancelReplaceLifecycle_run {resting : RestingOrder} {replaces : String}
    (hmode : ctx.mode = .liveGuarded)
    (h : (emitCancelReplaceLifecycle ctx resting replaces).exec w = (r, w')) :
    TokenRun (fun _ wire => resting.lifecycleOrder.IsWire ctx.tickSize wire) w w' r := by
  unfold emitCancelReplaceLifecycle at h
  rw [hmode] at h
  have hcancel := quiet_cancelOldOrder ctx.seams.adapter replaces
  obtain ⟨e, hraise, rfl⟩ | ⟨⟨canceled, withdrawn⟩, t, hold, h⟩ := Prog.exec_bind_cases h
  · exact .raised (hcancel.of_exec hraise)
  refine .of_quiet (hcancel.of_exec hold) fun _ _ => ?_
  rw [Prog.exec_bind_ok (exec_nextSeq t)] at h
  refine .of_quiet (quiet_nextSeq t) fun _ _ => ?_
  simp only [true_and] at h
  split_ifs at h with hwithdrawn
  · obtain ⟨rfl, rfl⟩ := Prod.mk.inj h
    refine .inl ⟨Std.Refl.refl _, fun out hout => Except.ok.inj hout ▸ ?_⟩
    exact Idle.cons_cancel (idle_abstain _ (by simp) rfl noAbsence_nil)
  · obtain ⟨e, hraise, rfl⟩ | ⟨⟨decision, events⟩, u, hrest, h⟩ := Prog.exec_bind_cases h
    · exact emitLifecycle_run hmode hraise
    · obtain ⟨rfl, rfl⟩ := Prod.mk.inj h
      rcases emitLifecycle_run hmode hrest with ⟨hquiet, hout⟩ | ⟨order, before, hplaces, hwire, hout⟩
      · refine .inl ⟨hquiet, fun out hok => Except.ok.inj hok ▸ ?_⟩
        exact (hout _ rfl).cons_cancel
      · refine .inr ⟨order, before, hplaces, hwire, fun out hok => Except.ok.inj hok ▸ ?_⟩
        exact (hout _ rfl).cons_cancel

end Lifecycles

/-! ## The gates of one token -/

/-- The quote is neither suspended, nor without a quote, nor one-sided, nor negative, nor old. -/
structure ClearQuote (quote : DustQuote) (nowS maxQuoteAgeS : ℤ) : Prop where
  not_suspended : quote.eventSuspended = false
  quoting : quote.noQuote = false
  two_sided : ∃ bid ask, quote.bid = some bid ∧ quote.ask = some ask ∧
    bid.size.lt (.fin 0) = false ∧ ask.size.lt (.fin 0) = false
  fresh : nowS - quote.quoteTsS ≤ maxQuoteAgeS

theorem evaluateSubmitGate_none {quote : DustQuote} {nowS maxQuoteAgeS : ℤ} :
    evaluateSubmitGate quote nowS maxQuoteAgeS = none ↔ ClearQuote quote nowS maxQuoteAgeS := by
  unfold evaluateSubmitGate
  constructor
  · intro h
    cases hsuspended : quote.eventSuspended with
    | true => simp [hsuspended] at h
    | false =>
      cases hnoQuote : quote.noQuote with
      | true => simp [hsuspended, hnoQuote] at h
      | false =>
        cases hbid : quote.bid with
        | none => simp [hsuspended, hnoQuote, hbid] at h
        | some bid =>
          cases hask : quote.ask with
          | none => simp [hsuspended, hnoQuote, hbid, hask] at h
          | some ask =>
            simp only [hsuspended, hnoQuote, hbid, hask, Bool.false_eq_true, if_false] at h
            split_ifs at h with hsize hage
            rw [Bool.or_eq_true, not_or, Bool.not_eq_true, Bool.not_eq_true] at hsize
            exact ⟨hsuspended, hnoQuote, ⟨bid, ask, hbid, hask, hsize⟩, not_lt.mp hage⟩
  · rintro ⟨hsuspended, hnoQuote, ⟨bid, ask, hbid, hask, hbidSize, haskSize⟩, hfresh⟩
    simp [hsuspended, hnoQuote, hbid, hask, hbidSize, haskSize, not_lt.mpr hfresh]

/-- What a token passed before its order reached the wire. `before` are the calls it made. -/
structure TokenGates (inputs : RunInputs) (gates : RunGates) (orderCap : Option AbstainReason)
    (session : DustSafetySession) (tokenId : String) (before : List Call) (order : WireOrder) :
    Prop where
  intent_open : gates.intentBlockReason = none
  target : gates.enforceIntentToken = true → gates.intentTargetToken = some tokenId
  armed : gates.armingBlockReason = none
  unblocked : session.submitBlocked = false
  authorized : gates.authorizationBlockReason = none
  loss_within : gates.lossCapBlockReason = none
  orders_below : orderCap = none
  quoted : ∃ quote nowS, Call.readQuote tokenId (.ok quote) ∈ before ∧
    Call.now (.ok nowS) ∈ before ∧ ClearQuote quote nowS inputs.envelope.maxQuoteAgeS ∧
    (quote.tokenId = tokenId ∨ order.postOnly = true → order.tokenId = tokenId)
  uncrossed : ∃ verdict, checkNonCrossing (inputs.ownLegs ++
    [⟨tokenId, order.side.text, order.nativePrice, .proposed, none⟩]) inputs.tickSize =
      .ok verdict ∧ verdict.admitted = true
  size : order.size = gates.wireSize
  tick : order.tickSize = inputs.tickSize

theorem nonCrossingGate_none {proposed : OwnOrderLeg} {ownLegs : List OwnOrderLeg}
    {tickSize : PyFloat} (h : nonCrossingGate proposed ownLegs tickSize = .ok none) :
    ∃ verdict, checkNonCrossing (ownLegs ++ [proposed]) tickSize = .ok verdict ∧
      verdict.admitted = true := by
  unfold nonCrossingGate at h
  cases hverdict : checkNonCrossing (ownLegs ++ [proposed]) tickSize with
  | error e => simp [hverdict, bind, Except.bind] at h
  | ok verdict =>
    refine ⟨verdict, rfl, ?_⟩
    by_contra hcross
    simp [hverdict, bind, Except.bind, pure, Except.pure, hcross] at h

theorem nonCrossingGate_some {proposed : OwnOrderLeg} {ownLegs : List OwnOrderLeg}
    {tickSize : PyFloat} {reason : AbstainReason}
    (h : nonCrossingGate proposed ownLegs tickSize = .ok (some reason)) : reason = .selfCross := by
  unfold nonCrossingGate at h
  cases hverdict : checkNonCrossing (ownLegs ++ [proposed]) tickSize with
  | error e => simp [hverdict, bind, Except.bind] at h
  | ok verdict =>
    simp only [hverdict, bind, Except.bind, pure, Except.pure, Except.ok.injEq] at h
    split_ifs at h
    exact (Option.some.inj h).symm

theorem buildRestingOrder_some {tokenId : String} {manifest : StrategyExperimentManifest}
    {params : MMIntentParams} {wireSize : ℚ} {tickSize : PyFloat} {resting : RestingOrder}
    (h : buildRestingOrder tokenId manifest params wireSize tickSize = some resting) :
    resting.tokenId = tokenId ∧ resting.size = wireSize := by
  unfold buildRestingOrder at h
  split at h
  · split_ifs at h
    simp only at h
    generalize hbuilt : mkRestingOrder _ _ _ _ _ _ _ _ _ = built at h
    cases built with
    | error e => simp [Except.toOption] at h
    | ok order =>
      obtain rfl := Option.some.inj h
      obtain ⟨htoken, -, hsize, -⟩ := mkRestingOrder_ok hbuilt
      exact ⟨htoken, hsize⟩
  · simp at h

section Token

variable {inputs : RunInputs} {gates : RunGates} {orderCap : Option AbstainReason}
  {tokenId : String} {quote : DustQuote} {nowS : ℤ} {w w' : World}
  {r : Except PyExc (SubmitDecision × List LifecycleEvent)}

/-- What an intent that is dispatched on a clear quote puts on the wire. -/
structure Dispatched (inputs : RunInputs) (gates : RunGates) (tokenId : String) (quote : DustQuote)
    (order : WireOrder) : Prop where
  token : quote.tokenId = tokenId ∨ order.postOnly = true → order.tokenId = tokenId
  uncrossed : ∃ verdict, checkNonCrossing (inputs.ownLegs ++
    [⟨tokenId, order.side.text, order.nativePrice, .proposed, none⟩]) inputs.tickSize =
      .ok verdict ∧ verdict.admitted = true
  size : order.size = gates.wireSize
  tick : order.tickSize = inputs.tickSize

theorem unlessCrossing_run {side : Side} {price : PyFloat}
    {place : Lane (SubmitDecision × List LifecycleEvent)} {G : WireOrder → Prop}
    (hplace : ∀ {u : World}, place.exec w = (r, u) → TokenRun (fun _ order => G order) w u r)
    (h : (unlessCrossing inputs tokenId side price tokenId place).exec w = (r, w')) :
    TokenRun (fun _ order => G order ∧ ∃ verdict, checkNonCrossing (inputs.ownLegs ++
      [⟨tokenId, side.text, price, .proposed, none⟩]) inputs.tickSize = .ok verdict ∧
        verdict.admitted = true) w w' r := by
  unfold unlessCrossing at h
  cases hgate : nonCrossingGate ⟨tokenId, side.text, price, .proposed, none⟩ inputs.ownLegs
      inputs.tickSize with
  | error e =>
    rw [hgate, Prog.exec_bind_error (Prog.exec_ofExcept _)] at h
    obtain ⟨rfl, rfl⟩ := Prod.mk.inj h
    exact .raised (Std.Refl.refl _)
  | ok reason =>
    rw [hgate, Prog.exec_bind_ok (Prog.exec_ofExcept _)] at h
    cases reason with
    | some reason =>
      obtain rfl := nonCrossingGate_some hgate
      obtain ⟨rfl, rfl⟩ := Prod.mk.inj h
      exact .abstained _ (by simp) (Std.Refl.refl _)
    | none => exact (hplace h).mono fun _ _ hG => ⟨hG, nonCrossingGate_none hgate⟩

/-- The wire order carries the fields of the lifecycle's order. -/
theorem LifecycleOrder.IsWire.fields {order : LifecycleOrder} {tickSize : PyFloat} {wire : WireOrder}
    (h : order.IsWire tickSize wire) : wire.tokenId = order.tokenId ∧ wire.side = order.side ∧
      wire.nativePrice = order.nativePrice ∧ wire.size = order.size ∧
      wire.postOnly = order.postOnly ∧ wire.tickSize = tickSize := by
  obtain ⟨arming, auth, rfl⟩ := h
  exact ⟨rfl, rfl, rfl, rfl, rfl, rfl⟩

theorem dispatchTake_run (hmode : inputs.mode = .liveGuarded)
    (h : (dispatchTake inputs gates tokenId quote nowS).exec w = (r, w')) :
    TokenRun (fun _ order => Dispatched inputs gates tokenId quote order) w w' r := by
  unfold dispatchTake at h
  split at h
  · obtain ⟨rfl, rfl⟩ := Prod.mk.inj h
    exact .abstained _ (by simp) (Std.Refl.refl _)
  · rename_i side tif hside
    split at h
    · rename_i bid ask hbid hask
      refine (unlessCrossing_run (emitOrderLifecycle_run hmode hbid hask) h).mono ?_
      rintro before order ⟨hwire, huncrossed⟩
      obtain ⟨htoken, hside, hprice, hsize, hpostOnly, htick⟩ := hwire.fields
      have htaker : order.postOnly = false := hpostOnly
      refine ⟨fun h => htoken.trans (h.resolve_right (by simp [htaker])), ?_, hsize, htick⟩
      rw [hside, hprice]
      exact huncrossed
    · obtain ⟨rfl, rfl⟩ := Prod.mk.inj h
      exact .raised (Std.Refl.refl _)

theorem emitMaker_run {resting : RestingOrder} (hmode : inputs.mode = .liveGuarded)
    (h : (emitMaker inputs gates tokenId quote nowS resting).exec w = (r, w')) :
    TokenRun (fun _ order => resting.lifecycleOrder.IsWire inputs.tickSize order) w w' r := by
  unfold emitMaker at h
  simp only at h
  split_ifs at h
  · split at h
    · split_ifs at h
      · obtain ⟨rfl, rfl⟩ := Prod.mk.inj h
        exact .abstained _ (by simp) (Std.Refl.refl _)
      · exact emitCancelReplaceLifecycle_run hmode h
    · obtain ⟨rfl, rfl⟩ := Prod.mk.inj h
      exact .abstained _ (by simp) (Std.Refl.refl _)
  · exact emitLifecycle_run hmode h

theorem dispatchMaker_run (hmode : inputs.mode = .liveGuarded)
    (h : (dispatchMaker inputs gates tokenId quote nowS).exec w = (r, w')) :
    TokenRun (fun _ order => Dispatched inputs gates tokenId quote order) w w' r := by
  unfold dispatchMaker at h
  split at h
  · obtain ⟨rfl, rfl⟩ := Prod.mk.inj h
    exact .abstained _ (by simp) (Std.Refl.refl _)
  · rename_i resting hresting
    obtain ⟨htokenId, hwireSize⟩ := buildRestingOrder_some hresting
    rw [htokenId] at h
    refine (unlessCrossing_run (emitMaker_run hmode) h).mono ?_
    rintro before order ⟨hwire, huncrossed⟩
    obtain ⟨htoken, hside, hprice, hsize, -, htick⟩ := hwire.fields
    refine ⟨fun _ => htoken.trans htokenId, ?_, hsize.trans hwireSize, htick⟩
    rw [hside, hprice]
    exact huncrossed

theorem dispatchIntent_run (hmode : inputs.mode = .liveGuarded)
    (h : (dispatchIntent inputs gates tokenId quote nowS).exec w = (r, w')) :
    TokenRun (fun _ order => Dispatched inputs gates tokenId quote order) w w' r := by
  unfold dispatchIntent at h
  split_ifs at h
  · exact dispatchTake_run hmode h
  · exact dispatchMaker_run hmode h

/-- Reading a quote makes one call, and returns what it answered. -/
theorem exec_readQuote (seams : Seams) (tokenId : String) (w : World) :
    ∃ answer, ((readQuote seams tokenId).exec w).2 = w.record (.readQuote tokenId answer) ∧
      ∀ quote, ((readQuote seams tokenId).exec w).1 = .ok (some quote) → answer = .ok quote := by
  unfold readQuote
  rw [Prog.exec_tryCatch, Prog.exec_bind, exec_ask]
  refine ⟨seams.readQuote w.history tokenId, ?_⟩
  cases seams.readQuote w.history tokenId with
  | ok quote => exact ⟨rfl, fun quote' h => congrArg _ (Option.some.inj (Except.ok.inj h))⟩
  | error e =>
    simp only
    split_ifs
    · exact ⟨rfl, fun quote h => by simp at h⟩
    · exact ⟨rfl, fun quote h => by simp at h⟩

theorem quiet_readQuote (seams : Seams) (tokenId : String) :
    Prog.Keeps Quiet (readQuote seams tokenId) := by
  intro w
  obtain ⟨answer, hw, -⟩ := exec_readQuote seams tokenId w
  rw [hw]
  exact ⟨⟨[_], rfl, by simp [Call.isQuiet, Call.isSubmit, Call.isSweep]⟩, rfl⟩

/-- The gates before the quote, none of which blocks. -/
theorem preQuoteBlockReason_none (hmode : inputs.mode = .liveGuarded)
    (h : preQuoteBlockReason inputs gates tokenId = none) :
    gates.intentBlockReason = none ∧
      (gates.enforceIntentToken = true → gates.intentTargetToken = some tokenId) ∧
      gates.armingBlockReason = none := by
  unfold preQuoteBlockReason at h
  rw [Option.orElse_eq_none, Option.orElse_eq_none, if_pos hmode] at h
  obtain ⟨hintent, htoken, harmed⟩ := h
  refine ⟨hintent, fun henforce => ?_, harmed⟩
  by_contra hne
  simp [henforce, eq_comm, hne] at htoken

/-- The gates after the quote, none of which blocks. -/
theorem submitBlockReason_none {session : DustSafetySession}
    (h : submitBlockReason inputs gates orderCap quote nowS session = none) :
    ClearQuote quote nowS inputs.envelope.maxQuoteAgeS ∧ session.submitBlocked = false ∧
      gates.authorizationBlockReason = none ∧ gates.lossCapBlockReason = none ∧
      orderCap = none := by
  unfold submitBlockReason checkCanSubmit at h
  simp only [Option.orElse_eq_none] at h
  obtain ⟨hgate, hblocked, hauthorized, hloss, hcap⟩ := h
  refine ⟨evaluateSubmitGate_none.mp hgate, ?_, hauthorized, hloss, hcap⟩
  cases hb : session.submitBlocked with
  | false => rfl
  | true => simp [hb] at hblocked

/-- No gate of the run blocks with the reason of a rehearsed order, so a blocked token never counts
as placed. -/
structure RunGates.Genuine (gates : RunGates) : Prop where
  arming : gates.armingBlockReason ≠ some .modeANoOrders
  authorization : gates.authorizationBlockReason ≠ some .modeANoOrders
  lossCap : gates.lossCapBlockReason ≠ some .modeANoOrders
  intent : gates.intentBlockReason ≠ some .modeANoOrders

theorem preQuoteBlockReason_ne (hgates : gates.Genuine) :
    preQuoteBlockReason inputs gates tokenId ≠ some .modeANoOrders := by
  unfold preQuoteBlockReason
  simp only [ne_eq, Option.orElse_eq_some, hgates.intent, false_or, not_and, not_or]
  intro _
  constructor
  · split_ifs <;> simp
  · intro _
    split_ifs
    · exact hgates.arming
    · simp

theorem evaluateSubmitGate_ne {maxQuoteAgeS : ℤ} :
    evaluateSubmitGate quote nowS maxQuoteAgeS ≠ some .modeANoOrders := by
  unfold evaluateSubmitGate
  cases quote.bid with
  | none => split_ifs <;> simp
  | some bid =>
    cases quote.ask with
    | none => split_ifs <;> simp
    | some ask =>
      simp only
      split_ifs <;> simp

theorem orderCap_ne (ordersThisRun : ℕ) :
    inputs.orderCap ordersThisRun ≠ some .modeANoOrders := by
  unfold RunInputs.orderCap orderCapBlockReason
  split_ifs <;> simp

theorem submitBlockReason_ne {session : DustSafetySession} (hgates : gates.Genuine)
    (hcap : orderCap ≠ some .modeANoOrders) :
    submitBlockReason inputs gates orderCap quote nowS session ≠ some .modeANoOrders := by
  unfold submitBlockReason
  simp only [ne_eq, Option.orElse_eq_some, evaluateSubmitGate_ne, hgates.authorization,
    hgates.lossCap, hcap, false_or, and_false, or_false, not_and]
  intro _
  split_ifs <;> simp

/-- **One token of a live run**: it abstains, or every gate is clear and it places one order. -/
theorem decideAndSubmit_live (hmode : inputs.mode = .liveGuarded) (hgates : gates.Genuine)
    (hcap : orderCap ≠ some .modeANoOrders)
    (h : (decideAndSubmit inputs gates orderCap tokenId).exec w = (r, w')) :
    TokenRun (TokenGates inputs gates orderCap w.session tokenId) w w' r := by
  unfold decideAndSubmit at h
  cases hpre : preQuoteBlockReason inputs gates tokenId with
  | some reason =>
    simp only [hpre] at h
    obtain ⟨rfl, rfl⟩ := Prod.mk.inj h
    exact .abstained _ (fun hr => preQuoteBlockReason_ne hgates (hpre.trans (congrArg _ hr)))
      (Std.Refl.refl _)
  | none =>
    simp only [hpre] at h
    obtain ⟨hintent, htarget, harmed⟩ := preQuoteBlockReason_none hmode hpre
    obtain ⟨answer, hread, hquote⟩ := exec_readQuote inputs.seams tokenId w
    obtain ⟨e, hraise, rfl⟩ | ⟨served, t, hserved, h⟩ := Prog.exec_bind_cases h
    · exact .raised ((quiet_readQuote _ _).of_exec hraise)
    have hquietRead := (quiet_readQuote inputs.seams tokenId).of_exec hserved
    rw [hserved] at hread hquote
    cases served with
    | none =>
      obtain ⟨rfl, rfl⟩ := Prod.mk.inj h
      exact .abstained _ (by simp) hquietRead
    | some quote =>
      obtain rfl := hquote quote rfl
      refine .of_quiet hquietRead fun pre hpre => ?_
      obtain rfl : pre = [.readQuote tokenId (.ok quote)] :=
        List.append_cancel_left (hpre.symm.trans (congrArg World.history hread))
      obtain ⟨e, hraise, rfl⟩ | ⟨now, u, hnow, h⟩ := Prog.exec_bind_cases h
      · exact .raised ((quiet_ask fun _ => rfl).of_exec hraise)
      refine .of_quiet ((quiet_ask fun _ => rfl).of_exec hnow) fun pre' hpre' => ?_
      rw [nowS, exec_ask] at hnow
      obtain ⟨hanswer, rfl⟩ := Prod.mk.inj hnow
      obtain rfl : pre' = [.now (.ok now)] := by
        rw [World.record_history, hanswer] at hpre'
        exact (List.append_cancel_left hpre').symm
      rw [Prog.exec_bind_ok Prog.exec_get] at h
      cases hsubmit : submitBlockReason inputs gates orderCap quote now
          (t.record (.now (inputs.seams.nowFn t.history ()))).session with
      | some reason =>
        simp only [hsubmit] at h
        obtain ⟨rfl, rfl⟩ := Prod.mk.inj h
        exact .abstained _
          (fun hr => submitBlockReason_ne hgates hcap (hsubmit.trans (congrArg _ hr)))
          (Std.Refl.refl _)
      | none =>
        simp only [hsubmit] at h
        obtain ⟨hclear, hblocked, hauthorized, hloss, hbelow⟩ := submitBlockReason_none hsubmit
        have hsession : t.session = w.session := hquietRead.2
        refine (dispatchIntent_run hmode h).mono fun before order hdispatched => ?_
        refine ⟨hintent, htarget, harmed, ?_, hauthorized, hloss, hbelow,
          ⟨quote, now, by simp, by simp, hclear, hdispatched.token⟩, hdispatched.uncrossed,
          hdispatched.size, hdispatched.tick⟩
        rw [← hsession]
        exact hblocked

end Token

/-! ## The loop over the universe -/

/-- The orders of some calls. -/
def placedIn (calls : List Call) : ℕ := calls.countP Call.isSubmit

/-- The sweeps of some calls. -/
def sweepsIn (calls : List Call) : ℕ := calls.countP Call.isSweep

/-- Every order of some calls satisfies `G` after the calls before it. -/
def OrdersPass (G : List Call → WireOrder → Prop) (calls : List Call) : Prop :=
  EachAfter (fun pre call => ∀ order answer, call = .submitOrder order answer → G pre order) calls

@[simp] theorem placedIn_nil : placedIn [] = 0 := rfl

@[simp] theorem placedIn_append (calls calls' : List Call) :
    placedIn (calls ++ calls') = placedIn calls + placedIn calls' := List.countP_append

@[simp] theorem sweepsIn_append (calls calls' : List Call) :
    sweepsIn (calls ++ calls') = sweepsIn calls + sweepsIn calls' := List.countP_append

@[simp] theorem placedIn_submit (order : WireOrder) (answer : Except PyExc L2SubmitResult)
    (calls : List Call) : placedIn (.submitOrder order answer :: calls) = placedIn calls + 1 :=
  List.countP_cons_of_pos rfl

@[simp] theorem sweepsIn_submit (order : WireOrder) (answer : Except PyExc L2SubmitResult)
    (calls : List Call) : sweepsIn (.submitOrder order answer :: calls) = sweepsIn calls := rfl

section Calls

variable {G G' : List Call → WireOrder → Prop} {calls calls' : List Call}

theorem placedIn_quiet (h : ∀ call ∈ calls, call.isQuiet = true) : placedIn calls = 0 := by
  refine List.countP_eq_zero.mpr fun call hcall => ?_
  have := h call hcall
  simp only [Call.isQuiet, Bool.and_eq_true, Bool.not_eq_true'] at this
  simp [this.1]

theorem sweepsIn_quiet (h : ∀ call ∈ calls, call.isQuiet = true) : sweepsIn calls = 0 := by
  refine List.countP_eq_zero.mpr fun call hcall => ?_
  have := h call hcall
  simp only [Call.isQuiet, Bool.and_eq_true, Bool.not_eq_true'] at this
  simp [this.2]

/-- Without an order there is nothing to pass. -/
theorem ordersPass_of_placedIn (h : placedIn calls = 0) : OrdersPass G calls := by
  refine eachAfter_of_forall fun call hcall pre order answer hsubmit => ?_
  have := List.countP_eq_zero.mp h call hcall
  simp [hsubmit, Call.isSubmit] at this

theorem OrdersPass.imp (h : OrdersPass G calls) (hG : ∀ pre order, G pre order → G' pre order) :
    OrdersPass G' calls :=
  EachAfter.imp h fun pre _ hcall order answer hsubmit => hG pre order (hcall order answer hsubmit)

theorem ordersPass_append : OrdersPass G (calls ++ calls') ↔
    OrdersPass G calls ∧ OrdersPass (fun pre => G (calls ++ pre)) calls' := eachAfter_append

end Calls

section Tokens

variable {inputs : RunInputs} {gates : RunGates} {w w' : World} {G : List Call → WireOrder → Prop}

/-- A token's run, by the calls it adds. -/
theorem TokenRun.calls {r : Except PyExc (SubmitDecision × List LifecycleEvent)}
    (h : TokenRun G w w' r) : SessionKept w w' ∧ ∃ new, w'.history = w.history ++ new ∧
      sweepsIn new = 0 ∧ OrdersPass (fun pre order => placedIn pre = 0 ∧ G pre order) new ∧
      ∀ out, r = .ok out → placedIn new = (if decisionPlaced out.1 then 1 else 0) ∧
        placedIn new = (if out.1.submitted then 1 else 0) ∧
        placedIn new = (submittedDecisionIds out.2).length ∧ NoAbsence out.2 := by
  rcases h with ⟨⟨⟨new, hnew, hquiet⟩, hsession⟩, hidle⟩ |
    ⟨order, before, ⟨answer, after, hnew, hbefore, hafter, hsession⟩, hgates, hacted⟩
  · have hplaced := placedIn_quiet hquiet
    refine ⟨hsession, new, hnew, sweepsIn_quiet hquiet, ordersPass_of_placedIn hplaced, ?_⟩
    intro out hout
    have hidle := hidle out hout
    simp [hplaced, hidle.not_placed, hidle.not_submitted, hidle.not_acknowledged, hidle.noAbsence]
  · have hplaced : placedIn (before ++ .submitOrder order answer :: after) = 1 := by
      simp [placedIn_quiet hbefore, placedIn_quiet hafter]
    refine ⟨hsession, _, hnew, by simp [sweepsIn_quiet hbefore, sweepsIn_quiet hafter], ?_, ?_⟩
    · rw [ordersPass_append]
      refine ⟨ordersPass_of_placedIn (placedIn_quiet hbefore), ?_⟩
      rw [← List.singleton_append, ordersPass_append]
      refine ⟨eachAfter_singleton.mpr ?_, ordersPass_of_placedIn (placedIn_quiet hafter)⟩
      rintro order' answer' hsubmit
      obtain ⟨rfl, -⟩ := Call.submitOrder.inj hsubmit
      rw [List.append_nil]
      exact ⟨placedIn_quiet hbefore, hgates⟩
    · intro out hout
      have hacted := hacted out hout
      rw [hplaced]
      simp [decisionPlaced, hacted.submitted, hacted.acknowledged, hacted.noAbsence]

/-- What an order of the loop passed, when `ordersThisRun` orders were counted before the loop. -/
def LoopGates (inputs : RunInputs) (gates : RunGates) (session : DustSafetySession)
    (tokenIds : List String) (ordersThisRun : ℕ) (pre : List Call) (order : WireOrder) : Prop :=
  ∃ tokenId ∈ tokenIds, ∃ earlier before, pre = earlier ++ before ∧
    TokenGates inputs gates (inputs.orderCap (ordersThisRun + placedIn pre)) session tokenId before
      order

/-- **The loop over the universe.** Every order passed its gates, the counted orders are the orders
placed, and each of them is acknowledged once in the stream. -/
theorem runTokens_live (hmode : inputs.mode = .liveGuarded) (hgates : gates.Genuine) :
    ∀ {tokenIds : List String} {ordersThisRun : ℕ} {w w' : World}
      {r : Except PyExc (List SubmitDecision × List LifecycleEvent)},
      (runTokens inputs gates tokenIds ordersThisRun).exec w = (r, w') →
      SessionKept w w' ∧ ∃ new, w'.history = w.history ++ new ∧ sweepsIn new = 0 ∧
        OrdersPass (LoopGates inputs gates w.session tokenIds ordersThisRun) new ∧
        ∀ out, r = .ok out → out.1.countP (·.submitted) = placedIn new ∧
          (submittedDecisionIds out.2).length = placedIn new ∧ NoAbsence out.2 := by
  intro tokenIds
  induction tokenIds with
  | nil =>
    intro ordersThisRun w w' r h
    obtain ⟨rfl, rfl⟩ := Prod.mk.inj h
    refine ⟨Std.Refl.refl _, [], by simp, rfl, eachAfter_nil, ?_⟩
    rintro out hout
    rw [← Except.ok.inj hout]
    exact ⟨rfl, rfl, noAbsence_nil⟩
  | cons tokenId tokenIds ih =>
    intro ordersThisRun w w' r h
    have hfirst {r : Except PyExc (SubmitDecision × List LifecycleEvent)} {u : World}
        (hrun : (decideAndSubmit inputs gates (inputs.orderCap ordersThisRun) tokenId).exec w =
          (r, u)) := (decideAndSubmit_live hmode hgates (orderCap_ne ordersThisRun) hrun).calls
    have hpass {pre : List Call} {order : WireOrder} (h : placedIn pre = 0 ∧
        TokenGates inputs gates (inputs.orderCap ordersThisRun) w.session tokenId pre order) :
        LoopGates inputs gates w.session (tokenId :: tokenIds) ordersThisRun pre order :=
      ⟨tokenId, by simp, [], pre, rfl, by simpa [h.1] using h.2⟩
    obtain ⟨e, hrun, rfl⟩ | ⟨⟨decision, tokenEvents⟩, u, hrun, h⟩ := Prog.exec_bind_cases h
    · obtain ⟨hsession, new, hnew, hsweeps, hpasses, -⟩ := hfirst hrun
      exact ⟨hsession, new, hnew, hsweeps, hpasses.imp fun _ _ => hpass, by simp⟩
    obtain ⟨hsession, new, hnew, hsweeps, hpasses, hcounts⟩ := hfirst hrun
    obtain ⟨hplaced, hsubmitted, hacks, habsent⟩ := hcounts _ rfl
    -- the orders counted for the rest of the loop are the ones placed so far
    have hcount : (if decisionPlaced decision then ordersThisRun + 1 else ordersThisRun) =
        ordersThisRun + placedIn new := by
      rw [hplaced]
      split_ifs <;> rfl
    simp only [hcount] at h
    have hrest {pre : List Call} {order : WireOrder}
        (h : LoopGates inputs gates u.session tokenIds (ordersThisRun + placedIn new) pre order) :
        LoopGates inputs gates w.session (tokenId :: tokenIds) ordersThisRun (new ++ pre) order := by
      obtain ⟨tokenId', hmem, earlier, before, rfl, htoken⟩ := h
      refine ⟨tokenId', List.mem_cons_of_mem _ hmem, new ++ earlier, before, by simp, ?_⟩
      rw [← hsession, placedIn_append, ← Nat.add_assoc]
      exact htoken
    obtain ⟨e, htail, rfl⟩ | ⟨⟨decisions, events⟩, v, htail, h⟩ := Prog.exec_bind_cases h
    · obtain ⟨hsession', new', hnew', hsweeps', hpasses', -⟩ := ih htail
      refine ⟨IsTrans.trans _ _ _ hsession hsession', new ++ new', ?_, ?_, ?_, by simp⟩
      · rw [hnew', hnew, List.append_assoc]
      · rw [sweepsIn_append, hsweeps, hsweeps']
      · exact ordersPass_append.mpr
          ⟨hpasses.imp fun _ _ => hpass, hpasses'.imp fun _ _ => hrest⟩
    · obtain ⟨rfl, rfl⟩ := Prod.mk.inj h
      obtain ⟨hsession', new', hnew', hsweeps', hpasses', hcounts'⟩ := ih htail
      obtain ⟨hsubmitted', hacks', habsent'⟩ := hcounts' _ rfl
      refine ⟨IsTrans.trans _ _ _ hsession hsession', new ++ new', ?_, ?_, ?_, ?_⟩
      · rw [hnew', hnew, List.append_assoc]
      · rw [sweepsIn_append, hsweeps, hsweeps']
      · exact ordersPass_append.mpr
          ⟨hpasses.imp fun _ _ => hpass, hpasses'.imp fun _ _ => hrest⟩
      · intro out hout
        rw [← Except.ok.inj hout, placedIn_append]
        refine ⟨?_, ?_, noAbsence_append.mpr ⟨habsent, habsent'⟩⟩
        · rw [List.countP_cons, hsubmitted', hsubmitted, Nat.add_comm]
        · rw [submittedDecisionIds, List.filterMap_append, List.length_append, ← hacks', hacks]
          rfl

end Tokens

end Veridex.DustExecution
