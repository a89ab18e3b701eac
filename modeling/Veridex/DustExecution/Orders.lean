import Veridex.DustExecution.Arming
import Veridex.DustExecution.Reconcile

/-!
# The lifecycle of one order (`runner.py`, lines 2007-2558)

An order that passed every gate is placed and reconciled, and five events record it: the intent, the
attempt, the acknowledgement, the status and the reconciliation. A live run places the order through
the write port of its arming bundle; a dry run signs it with the offline signer and sends nothing.

The taker's and the maker's lifecycles differ in the order only, so both are `emitLifecycle` at
their own order. `emitCancelReplaceLifecycle` first cancels the order it replaces and asks the venue
whether it is gone.

## Results

* `emitLifecycle_live`: a live lifecycle that gets past its price check calls the write port once,
  with its own order, and then only reads.
* `emitLifecycle_ok`: what a lifecycle that returns has recorded.
-/

namespace Veridex.DustExecution

open Veridex.Py Veridex.Lib

/-- `SubmitDecision`. -/
structure SubmitDecision where
  tokenId : String
  submitted : Bool
  abstainReason : Option AbstainReason
  venueOrderId : Option String := none
  deriving DecidableEq, Repr

/-- `_abstain`. -/
def abstain (tokenId : String) (reason : AbstainReason) : SubmitDecision :=
  { tokenId, submitted := false, abstainReason := some reason }

/-- The events of one order, in the order they are emitted. -/
structure OrderLifecycle where
  intent : OrderSubmitIntent
  attempt : OrderSubmitAttempt
  ack : OrderAckEvent
  status : OrderStatusEvent
  reconciliation : RealFillReconciliation

namespace OrderLifecycle

/-- The five events as a stream. -/
def events (life : OrderLifecycle) : List LifecycleEvent :=
  [.orderSubmitIntent life.intent, .orderSubmitAttempt life.attempt, .orderAckEvent life.ack,
    .orderStatusEvent life.status, .realFillReconciliation life.reconciliation]

end OrderLifecycle

/-! ## Reconciling -/

/-- `_reconcile_after_submit`. -/
def reconcileAfterSubmit (adapter : Adapter) (presubmit : PreSubmitRecord) :
    Lane (UncertainSubmitState × ℚ) := do
  let verdict ← assessUncertainSubmit adapter presubmit
  return (verdict.state, verdict.matchedFillSize)

/-- `_status_for`. -/
def statusFor (state : UncertainSubmitState) (matchedFillSize : ℚ) : OrderStatus :=
  if state = .ambiguous then .unresolved
  else if 0 < matchedFillSize then .filled
  else .expired

/-- `_RECONCILED_STATE`. -/
def reconciledState : UncertainSubmitState → UncertainState
  | .resolved => .resolved
  | .definitivelyAbsent => .definitivelyAbsent
  | .ambiguous => .ambiguous

/-- `_ack_fields_from_submit_result`. -/
def ackFieldsFromSubmitResult (textOf : Value → String) (response : Value) :
    Except PyExc (Option String × Bool) := do
  let id := ((← response.get "orderID").or (← response.get "id")).or (.str "")
  let orderId := id.text textOf
  let success ← response.get "success" (.bool (orderId != ""))
  return (if orderId = "" then none else some orderId, success.truthy)

/-! ## One lifecycle -/

/-- The order a lifecycle is about. -/
structure LifecycleOrder where
  tokenId : String
  side : Side
  nativePrice : PyFloat
  size : ℚ
  tif : TimeInForce
  postOnly : Bool
  expirationS : ℤ
  clientOrderId : String
  deriving DecidableEq

/-- What the write port is called with. -/
def LifecycleOrder.wire (order : LifecycleOrder) (tickSize : PyFloat) (arming : ModeBArming)
    (auth : PrivyAuthContext) : WireOrder :=
  ⟨order.tokenId, order.side, order.nativePrice, order.size, order.tif, order.postOnly, tickSize,
    arming.binding, auth, order.expirationS⟩

/-- What a lifecycle is given besides its order. -/
structure LifecycleContext where
  seams : Seams
  mode : ExecutionMode
  nowS : ℤ
  tickSize : PyFloat
  arming : Option ModeBArming
  sourceTs : ℤ

/-- An `assert` that fails. -/
def assertionError (msg : String) : PyExc := ⟨.exception, msg⟩

/-- Put the order on the wire, or sign it offline: its pre-submit record, and the venue's response
when there was a venue. -/
def placeOrder (ctx : LifecycleContext) (order : LifecycleOrder) (price : UnitPrice) :
    Lane (PreSubmitRecord × Option Value) :=
  match ctx.mode with
  | .liveGuarded =>
    match ctx.arming with
    | none => throw (assertionError "arming is not None")
    | some arming =>
      match arming.writePort, arming.orderAuth with
      | some writePort, some auth => do
        let wire := order.wire ctx.tickSize arming auth
        let result ← ask writePort wire (.submitOrder wire)
        return (result.presubmitRecord, some result.response)
      | _, _ => throw (assertionError "write_port is not None and order_auth is not None")
  | .dryRun => do
    let payload := ⟨order.tokenId, order.side, price, order.size, order.tif, ctx.tickSize,
      order.clientOrderId⟩
    let orderDigest ← ask ctx.seams.signer.signOrder payload (.signOrder payload)
    return (⟨orderDigest, "mode-a-dry-run-digest:" ++ orderDigest, none⟩, none)

/-- The acknowledgement of a response, or of its absence. -/
def ackFields (textOf : Value → String) : Option Value → Except PyExc (Option String × AckStatus)
  | none => .ok (none, .dryRunNotSubmitted)
  | some response => do
    let (venueOrderId, accepted) ← ackFieldsFromSubmitResult textOf response
    return (venueOrderId, if accepted then .accepted else .notAccepted)

/-- The decision of a lifecycle. Only a live one was answered by the venue. -/
def lifecycleDecision (tokenId : String) (response : Option Value) (venueOrderId : Option String) :
    SubmitDecision :=
  { tokenId
    submitted := response.isSome
    abstainReason := if response.isSome then none else some .modeANoOrders
    venueOrderId }

/-- The lifecycle from the attempt on. -/
def completeLifecycle (ctx : LifecycleContext) (order : LifecycleOrder) (intent : OrderSubmitIntent)
    (presubmit : PreSubmitRecord) (response : Option Value) :
    Lane (SubmitDecision × OrderLifecycle) := do
  let nowMs := ctx.nowS * 1000
  let envelope (seq : ℕ) : EventEnvelope := ⟨seq, some ctx.sourceTs, nowMs⟩
  let attemptSeq ← nextSeq
  let (venueOrderId, ackStatus) ← Prog.ofExcept (ackFields ctx.seams.adapter.textOf response)
  let ackSeq ← nextSeq
  let (state, matchedFillSize) ← reconcileAfterSubmit ctx.seams.adapter presubmit
  let statusSeq ← nextSeq
  let reconciliationSeq ← nextSeq
  return (lifecycleDecision order.tokenId response venueOrderId,
    { intent
      attempt :=
        ⟨envelope attemptSeq, order.clientOrderId, order.clientOrderId,
          "scrubbed://dust-execution/" ++ order.clientOrderId, nowMs, presubmit⟩
      ack := ⟨envelope ackSeq, order.clientOrderId, order.clientOrderId, venueOrderId, ackStatus⟩
      status :=
        ⟨envelope statusSeq, order.clientOrderId, order.clientOrderId, venueOrderId,
          statusFor state matchedFillSize, matchedFillSize, none⟩
      reconciliation :=
        ⟨envelope reconciliationSeq, order.clientOrderId, presubmit.venueOrderKey,
          reconciledState state, matchedFillSize⟩ })

/-- The lifecycle of an order. The price of the intent is checked before anything is placed. -/
def emitLifecycle (ctx : LifecycleContext) (order : LifecycleOrder) :
    Lane (SubmitDecision × OrderLifecycle) := do
  let nowMs := ctx.nowS * 1000
  let intentSeq ← nextSeq
  let price ← Prog.ofExcept (UnitPrice.ofFloat order.nativePrice)
  let intent := ⟨⟨intentSeq, some ctx.sourceTs, nowMs⟩, order.tokenId, order.side.text, price,
    order.size, order.tif, order.clientOrderId, order.clientOrderId, nowMs⟩
  let (presubmit, response) ← placeOrder ctx order price
  completeLifecycle ctx order intent presubmit response

/-! ## The three lifecycles -/

/-- The price a taker crosses at: a buy lifts the ask, a sell hits the bid. -/
def crossingPrice (side : Side) (bid ask : BookSide) : PyFloat :=
  match side with
  | .buy => ask.price
  | .sell => bid.price

/-- The taker's order. It is for the token the quote names. -/
def takerOrder (manifest : StrategyExperimentManifest) (quote : DustQuote) (bid ask : BookSide)
    (side : Side) (tif : TimeInForce) (wireSize : ℚ) : LifecycleOrder :=
  { tokenId := quote.tokenId
    side
    nativePrice := crossingPrice side bid ask
    size := wireSize
    tif
    postOnly := false
    expirationS := 0
    clientOrderId := manifest.strategyId ++ ":" ++ quote.tokenId }

/-- The maker's order. -/
def RestingOrder.lifecycleOrder (resting : RestingOrder) : LifecycleOrder :=
  { tokenId := resting.tokenId
    side := resting.side
    nativePrice := .fin resting.nativePrice
    size := resting.size
    tif := resting.tif
    postOnly := resting.postOnly
    expirationS := resting.gtdExpirationTs.getD 0
    clientOrderId := resting.clientOrderId }

/-- `_emit_order_lifecycle`. -/
def emitOrderLifecycle (ctx : LifecycleContext) (manifest : StrategyExperimentManifest)
    (quote : DustQuote) (side : Side) (tif : TimeInForce) (wireSize : ℚ) :
    Lane (SubmitDecision × List LifecycleEvent) :=
  match quote.bid, quote.ask with
  | some bid, some ask => do
    let (decision, life) ←
      emitLifecycle ctx (takerOrder manifest quote bid ask side tif wireSize)
    return (decision, life.events)
  | _, _ => throw (assertionError "quote.bid is not None and quote.ask is not None")

/-- `_emit_resting_lifecycle`. -/
def emitRestingLifecycle (ctx : LifecycleContext) (resting : RestingOrder) :
    Lane (SubmitDecision × List LifecycleEvent) := do
  let (decision, life) ← emitLifecycle ctx resting.lifecycleOrder
  return (decision, life.events)

/-- `_old_order_terminal_withdrawn`. -/
def oldOrderTerminalWithdrawn (adapter : Adapter) (orderId : String) : Lane Bool := do
  let (state, matchedFillSize) ← reconcileAfterSubmit adapter ⟨"", orderId, none⟩
  return decide (state = .resolved ∧ matchedFillSize ≤ 0)

/-- The cancel response lists the order under `canceled`. -/
def listsCanceled (orderId : String) : Value → Bool
  | .dict items => match items.lookup "canceled" with
    | some (.list ids) => ids.any fun
      | .str id => id = orderId
      | _ => false
    | _ => false
  | _ => false

/-- The live part of a cancel-replace: the cancel's own word, and whether the venue's reads prove
the old order withdrawn. -/
def cancelOldOrder (adapter : Adapter) (replacesClientOrderId : String) : Lane (Bool × Bool) :=
  match adapter.cancelSingleOrder with
  | none => throw ⟨.typeError,
      "a cancel_replace intent was admitted but the venue adapter cannot cancel a single order"⟩
  | some cancelSingleOrder => do
    let response ← ask cancelSingleOrder replacesClientOrderId
      (.cancelSingleOrder replacesClientOrderId)
    let withdrawn ← oldOrderTerminalWithdrawn adapter replacesClientOrderId
    return (listsCanceled replacesClientOrderId response, withdrawn)

/-- `_emit_cancel_replace_lifecycle`. -/
def emitCancelReplaceLifecycle (ctx : LifecycleContext) (resting : RestingOrder)
    (replacesClientOrderId : String) : Lane (SubmitDecision × List LifecycleEvent) := do
  let (canceled, oldOrderWithdrawn) ← match ctx.mode with
    | .liveGuarded => cancelOldOrder ctx.seams.adapter replacesClientOrderId
    | .dryRun => pure (false, false)
  let seq ← nextSeq
  let cancelEvent : LifecycleEvent := .orderCancelEvent
    ⟨⟨seq, some ctx.sourceTs, ctx.nowS * 1000⟩, some resting.clientOrderId, resting.clientOrderId,
      none, canceled⟩
  if ctx.mode = .liveGuarded ∧ oldOrderWithdrawn = false then
    return (abstain resting.tokenId .cancelReplaceOldOrderLive, [cancelEvent])
  else do
    let (decision, restingEvents) ← emitRestingLifecycle ctx resting
    return (decision, cancelEvent :: restingEvents)

/-! ## What a lifecycle does -/

/-- One order is placed, after the calls `before`, with neither another order nor a sweep around
it. -/
def Places (order : WireOrder) (before : List Call) (w w' : World) : Prop :=
  ∃ answer after, w'.history = w.history ++ (before ++ .submitOrder order answer :: after) ∧
    (∀ call ∈ before, call.isQuiet = true) ∧ (∀ call ∈ after, call.isQuiet = true) ∧
    SessionKept w w'

/-- The write port and the authorization of the arming bundle are there. -/
structure CanWrite (ctx : LifecycleContext) (arming : ModeBArming) (auth : PrivyAuthContext) :
    Prop where
  bundled : ctx.arming = some arming
  writePort : arming.writePort.isSome = true
  orderAuth : arming.orderAuth = some auth

/-- Everything a live lifecycle needs to call the write port. -/
structure Placeable (ctx : LifecycleContext) (order : LifecycleOrder) (arming : ModeBArming)
    (auth : PrivyAuthContext) : Prop extends CanWrite ctx arming auth where
  price : ∃ price, UnitPrice.ofFloat order.nativePrice = .ok price

/-- The events are those of an order that reached the venue, under one decision and one key. -/
structure OrderLifecycle.Records (life : OrderLifecycle) (decisionId : String)
    (presubmit : PreSubmitRecord) (state : UncertainSubmitState) : Prop where
  attempt_decision : life.attempt.decisionId = decisionId
  attempt_record : life.attempt.presubmitRecord = presubmit
  ack_decision : life.ack.decisionId = decisionId
  ack_live : life.ack.ackStatus ≠ .dryRunNotSubmitted
  reconciliation_decision : life.reconciliation.decisionId = decisionId
  reconciliation_key : life.reconciliation.venueOrderKey = presubmit.venueOrderKey
  reconciliation_state : life.reconciliation.reconciledState = reconciledState state

section Lifecycle

variable {ctx : LifecycleContext} {order : LifecycleOrder} {w w' : World}
  {presubmit : PreSubmitRecord} {response : Option Value}

/-- What is quiet before an order is part of the calls before it. -/
theorem Places.of_quiet {wire : WireOrder} {before : List Call} {u : World} (hpre : Quiet w u)
    (h : Places wire before u w') :
    ∃ pre, u.history = w.history ++ pre ∧ Places wire (pre ++ before) w w' := by
  obtain ⟨⟨pre, hu, hquiet⟩, hsession⟩ := hpre
  obtain ⟨answer, after, hw', hbefore, hafter, hkept⟩ := h
  refine ⟨pre, hu, answer, after, by rw [hw', hu]; simp, ?_, hafter,
    IsTrans.trans _ _ _ hsession hkept⟩
  intro call hcall
  exact (List.mem_append.mp hcall).elim (hquiet call) (hbefore call)

/-- An order at once, and quiet after it. -/
theorem Places.of_record {wire : WireOrder} {answer : Except PyExc L2SubmitResult} (u : World)
    (hu : u.history = w.history) (hsession : SessionKept w u)
    (h : Quiet (u.record (.submitOrder wire answer)) w') : Places wire [] w w' := by
  obtain ⟨⟨after, hw', hquiet⟩, hkept⟩ := h
  refine ⟨answer, after, ?_, by simp, hquiet, IsTrans.trans _ _ _ hsession hkept⟩
  rw [hw', World.record_history, hu]
  simp

theorem quiet_reconcileAfterSubmit (adapter : Adapter) (presubmit : PreSubmitRecord) :
    Prog.Keeps Quiet (reconcileAfterSubmit adapter presubmit) :=
  Prog.keeps_bind (quiet_assessUncertainSubmit adapter presubmit) fun _ => Prog.keeps_pure _

theorem quiet_oldOrderTerminalWithdrawn (adapter : Adapter) (orderId : String) :
    Prog.Keeps Quiet (oldOrderTerminalWithdrawn adapter orderId) :=
  Prog.keeps_bind (quiet_reconcileAfterSubmit adapter _) fun _ => Prog.keeps_pure _

theorem quiet_cancelOldOrder (adapter : Adapter) (replaces : String) :
    Prog.Keeps Quiet (cancelOldOrder adapter replaces) := by
  unfold cancelOldOrder
  split
  · exact Prog.keeps_throw _
  · refine Prog.keeps_bind (quiet_ask fun _ => rfl) fun response => ?_
    refine Prog.keeps_bind (quiet_oldOrderTerminalWithdrawn adapter replaces) fun withdrawn => ?_
    exact Prog.keeps_pure _

theorem quiet_completeLifecycle (intent : OrderSubmitIntent) :
    Prog.Keeps Quiet (completeLifecycle ctx order intent presubmit response) := by
  unfold completeLifecycle
  refine Prog.keeps_bind quiet_nextSeq fun attemptSeq => ?_
  refine Prog.keeps_bind (Prog.keeps_ofExcept _) fun ack => ?_
  refine Prog.keeps_bind quiet_nextSeq fun ackSeq => ?_
  refine Prog.keeps_bind (quiet_reconcileAfterSubmit _ _) fun verdict => ?_
  refine Prog.keeps_bind quiet_nextSeq fun statusSeq => ?_
  refine Prog.keeps_bind quiet_nextSeq fun reconciliationSeq => ?_
  exact Prog.keeps_pure _

theorem ackFields_some {textOf : Value → String} {venueOrderId : Option String}
    {ackStatus : AckStatus} {response : Value}
    (h : ackFields textOf (some response) = .ok (venueOrderId, ackStatus)) :
    ackStatus ≠ .dryRunNotSubmitted := by
  unfold ackFields at h
  cases hfields : ackFieldsFromSubmitResult textOf response with
  | error e => simp [hfields, bind, Except.bind] at h
  | ok fields =>
    simp only [hfields, bind, Except.bind, pure, Except.pure, Except.ok.injEq, Prod.mk.injEq] at h
    rw [← h.2]
    split_ifs <;> simp

/-- **A completed live lifecycle** is decided as submitted, and records the verdict of the
assessment made right after the order. -/
theorem completeLifecycle_ok {intent : OrderSubmitIntent} {response : Value}
    {out : SubmitDecision × OrderLifecycle}
    (h : (completeLifecycle ctx order intent presubmit (some response)).exec w = (.ok out, w')) :
    out.1.submitted = true ∧ ∃ u verdict, u.history = w.history ∧
      ((assessUncertainSubmit ctx.seams.adapter presubmit).exec u).1 = .ok verdict ∧
      out.2.Records order.clientOrderId presubmit verdict.state := by
  unfold completeLifecycle at h
  rw [Prog.exec_bind_ok (exec_nextSeq w)] at h
  obtain ⟨⟨venueOrderId, ackStatus⟩, hack, h⟩ := Prog.exec_ofExcept_returned h
  rw [Prog.exec_bind_ok (exec_nextSeq _)] at h
  obtain ⟨⟨state, matchedFillSize⟩, t, hrec, h⟩ := Prog.exec_bind_returned h
  obtain ⟨verdict, u, hassess, hverdict⟩ := Prog.exec_bind_returned hrec
  rw [Prog.exec_pure, Prod.mk.injEq, Except.ok.injEq, Prod.mk.injEq] at hverdict
  obtain ⟨⟨rfl, rfl⟩, rfl⟩ := hverdict
  rw [Prog.exec_bind_ok (exec_nextSeq _), Prog.exec_bind_ok (exec_nextSeq _)] at h
  obtain ⟨hout, -⟩ := Prod.mk.inj h
  obtain rfl := Except.ok.inj hout
  refine ⟨rfl, _, verdict, ?_, congrArg Prod.fst hassess,
    ⟨rfl, rfl, rfl, ackFields_some hack, rfl, rfl, rfl⟩⟩
  rfl

/-- What a live lifecycle records once it returns. -/
def RecordsPlaced (ctx : LifecycleContext) (order : LifecycleOrder) (wire : WireOrder)
    (w : World) (out : SubmitDecision × OrderLifecycle) : Prop :=
  out.1.submitted = true ∧ ∃ result u verdict,
    u.history = w.history ++ [.submitOrder wire (.ok result)] ∧
    ((assessUncertainSubmit ctx.seams.adapter result.presubmitRecord).exec u).1 = .ok verdict ∧
    out.2.Records order.clientOrderId result.presubmitRecord verdict.state

/-- A live order goes to the write port of the bundle, or an assertion fails. -/
theorem placeOrder_live (hmode : ctx.mode = .liveGuarded) (order : LifecycleOrder)
    (price : UnitPrice) :
    (∃ arming auth writePort, CanWrite ctx arming auth ∧
      placeOrder ctx order price = do
        let result ← ask writePort (order.wire ctx.tickSize arming auth)
          (.submitOrder (order.wire ctx.tickSize arming auth))
        return (result.presubmitRecord, some result.response)) ∨
    ((¬ ∃ arming auth, CanWrite ctx arming auth) ∧
      ∃ e, placeOrder ctx order price = throw e) := by
  unfold placeOrder
  rw [hmode]
  cases harming : ctx.arming with
  | none =>
    refine .inr ⟨?_, _, rfl⟩
    rintro ⟨arming, auth, h, -, -⟩
    simp [harming] at h
  | some arming =>
    cases hport : arming.writePort with
    | none =>
      simp only [hport]
      refine .inr ⟨?_, _, rfl⟩
      rintro ⟨bundle, auth, h, hwrite, -⟩
      obtain rfl := Option.some.inj (harming.symm.trans h)
      simp [hport] at hwrite
    | some writePort =>
      cases hauth : arming.orderAuth with
      | none =>
        simp only [hport, hauth]
        refine .inr ⟨?_, _, rfl⟩
        rintro ⟨bundle, auth, h, -, hwrite⟩
        obtain rfl := Option.some.inj (harming.symm.trans h)
        simp [hauth] at hwrite
      | some auth =>
        refine .inl ⟨arming, auth, writePort, ⟨harming, ?_, hauth⟩, ?_⟩
        · rw [hport]
          rfl
        · simp only [hport, hauth]

/-- **A live lifecycle** either has everything it needs and places its order, or raises having
placed nothing. -/
theorem emitLifecycle_live {r : Except PyExc (SubmitDecision × OrderLifecycle)}
    (hmode : ctx.mode = .liveGuarded) (h : (emitLifecycle ctx order).exec w = (r, w')) :
    (∃ arming auth, Placeable ctx order arming auth ∧
      Places (order.wire ctx.tickSize arming auth) [] w w' ∧
      ∀ out, r = .ok out →
        RecordsPlaced ctx order (order.wire ctx.tickSize arming auth) w out) ∨
    ((¬ ∃ arming auth, Placeable ctx order arming auth) ∧ Quiet w w' ∧ ∃ e, r = .error e) := by
  let u : World := { w with nextSeq := w.nextSeq + 1 }
  have hseq : Quiet w u := quiet_nextSeq w
  unfold emitLifecycle at h
  rw [Prog.exec_bind_ok (exec_nextSeq w)] at h
  cases hprice : UnitPrice.ofFloat order.nativePrice with
  | error e =>
    rw [hprice, Prog.exec_bind_error (Prog.exec_ofExcept _)] at h
    obtain ⟨rfl, rfl⟩ := Prod.mk.inj h
    refine .inr ⟨?_, hseq, e, rfl⟩
    rintro ⟨arming, auth, -, price, hok⟩
    simp [hprice] at hok
  | ok price =>
    rw [hprice, Prog.exec_bind_ok (Prog.exec_ofExcept _)] at h
    rcases placeOrder_live hmode order price with ⟨arming, auth, writePort, hwrite, hplace⟩ |
      ⟨hnot, e, hplace⟩
    · left
      refine ⟨arming, auth, ⟨hwrite, price, hprice⟩, ?_⟩
      simp only [hplace, bind_assoc] at h
      generalize order.wire ctx.tickSize arming auth = wire at h ⊢
      obtain ⟨e, -, rfl, rfl⟩ | ⟨result, -, h⟩ := exec_ask_cases h
      · exact ⟨.of_record u rfl hseq.2 (Std.Refl.refl _), by simp⟩
      · rw [pure_bind] at h
        refine ⟨.of_record u rfl hseq.2 ((quiet_completeLifecycle _).of_exec h), ?_⟩
        rintro out rfl
        obtain ⟨hsubmitted, v, verdict, hv, hassess, hrecords⟩ := completeLifecycle_ok h
        exact ⟨hsubmitted, result, v, verdict, hv, hassess, hrecords⟩
    · right
      simp only [hplace] at h
      rw [Prog.exec_bind_error (Prog.exec_throw _)] at h
      obtain ⟨rfl, rfl⟩ := Prod.mk.inj h
      refine ⟨?_, hseq, e, rfl⟩
      rintro ⟨arming, auth, hplaceable⟩
      exact hnot ⟨arming, auth, hplaceable.toCanWrite⟩

end Lifecycle

end Veridex.DustExecution
