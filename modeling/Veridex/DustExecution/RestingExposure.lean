import Veridex.DustExecution.Orders
import Veridex.DustExecution.SessionState

/-!
# What the tri-state verdict says about an order that may still rest

`resolved` folds three situations into one: the order was withdrawn, it filled, or a part of it
filled while the rest is still on the book. Two callers rely on telling them apart.

* A reservation stops freezing its session once its order is `resolved`.
  `assess_keepsFreezing_iff` says when an order whose record is not terminal keeps the freeze.
* A cancel-replace rests the replacement once the order it replaces is `resolved` with no matched
  size. `emitCancelReplace_withdrawn_iff` says when that order was withdrawn.
-/

namespace Veridex.DustExecution

open Veridex.Py Veridex.Lib

/-! ## What a venue's answers report -/

/-- The status an order record reports, in lower case. -/
def VenueTruth.Reports (truth : VenueTruth) (textOf : Value → String) (status : String) : Prop :=
  ∃ items value, truth.order = some (.ok (.dict items)) ∧ items.lookup "status" = some value ∧
    lower (value.text textOf) = status

/-- The statuses of an order that is gone and not filled. -/
def withdrawnStatuses : List String := ["killed", "canceled", "cancelled", "expired", "rejected"]

/-- The statuses of an order that filled. -/
def fillStatuses : List String := ["filled", "matched"]

theorem mem_terminalOrderStatuses {status : String} :
    status ∈ terminalOrderStatuses ↔ status ∈ fillStatuses ∨ status ∈ withdrawnStatuses := by
  simp [terminalOrderStatuses, fillStatuses, withdrawnStatuses, or_assoc]

/-- The id a record holds under `field` is the key. -/
def Value.holdsId (textOf : Value → String) (field key : String) (record : Value) : Prop :=
  ∃ items, record = .dict items ∧ ((items.lookup field).getD (.str "")).text textOf = key

/-- A trade names the key, as its taker or as one of its makers. -/
def Value.namesOrder (textOf : Value → String) (key : String) (trade : Value) : Prop :=
  Value.holdsId textOf "taker_order_id" key trade ∨
    ∃ items makers, trade = .dict items ∧ items.lookup "maker_orders" = some (.list makers) ∧
      ∃ maker ∈ makers, Value.holdsId textOf "order_id" key maker

/-- A trade of the fill history names the key. -/
def VenueTruth.TradeNames (truth : VenueTruth) (textOf : Value → String) (key : String) : Prop :=
  ∃ page trades, truth.fills = some (.ok page) ∧ tradesOf page = .ok (.list trades) ∧
    ∃ trade ∈ trades, Value.namesOrder textOf key trade

section Verdict

variable {truth : VenueTruth} {textOf : Value → String} {key status : String}

/-- A terminal record reports a terminal status. -/
theorem isTerminalRecord_reports :
    (∃ record, truth.order = some (.ok record) ∧ isTerminalRecord textOf record = .ok true) ↔
      ∃ status, truth.Reports textOf status ∧ status ∈ terminalOrderStatuses := by
  constructor
  · rintro ⟨record, horder, hterminal⟩
    unfold isTerminalRecord at hterminal
    split_ifs at hterminal with htruthy
    · simp [pure, Except.pure] at hterminal
    cases record with
    | dict items =>
      simp only [Value.get_dict, bind, Except.bind, pure, Except.pure, Except.ok.injEq,
        decide_eq_true_eq] at hterminal
      cases hstatus : items.lookup "status" with
      | none =>
        simp [hstatus, Value.text, terminalOrderStatuses] at hterminal
      | some value =>
        rw [hstatus] at hterminal
        exact ⟨_, ⟨items, value, horder, hstatus, rfl⟩, hterminal⟩
    | none | bool _ | int _ | float _ | str _ | list _ | other =>
      simp [Value.get, bind, Except.bind] at hterminal
  · rintro ⟨status, ⟨items, value, horder, hstatus, rfl⟩, hterminal⟩
    refine ⟨_, horder, ?_⟩
    have htruthy : (Value.dict items).truthy = true := by
      cases items with
      | nil => simp at hstatus
      | cons _ _ => rfl
    simp [isTerminalRecord, htruthy, hstatus, bind, Except.bind, pure, Except.pure, hterminal]

/-- Two reported statuses are one. -/
theorem VenueTruth.Reports.unique {status' : String} (h : truth.Reports textOf status)
    (h' : truth.Reports textOf status') : status = status' := by
  obtain ⟨items, value, horder, hvalue, rfl⟩ := h
  obtain ⟨items', value', horder', hvalue', rfl⟩ := h'
  rw [horder, Option.some.injEq, Except.ok.injEq, Value.dict.injEq] at horder'
  subst horder'
  rw [hvalue, Option.some.injEq] at hvalue'
  rw [hvalue']

/-! ## The reservation of a part-filled order -/

/-- The record reports a status that is not terminal. -/
def VenueTruth.ReportsLive (truth : VenueTruth) (textOf : Value → String) : Prop :=
  ∃ status, truth.Reports textOf status ∧ status ∉ terminalOrderStatuses

/-- The assessment reads its answers, and the fill history proves a positive size. -/
structure VenueTruth.ProvesFill (truth : VenueTruth) (textOf : Value → String) (key : String) :
    Prop where
  key_nonempty : key ≠ ""
  orders_read : ∃ candidateCount, evidenceOf 0 openCandidates truth.orders = .ok candidateCount
  fill : ∃ page size, truth.fills = some (.ok page) ∧
    filledSize textOf page key = .ok (some size)

/-- A record that reports a live status is no terminal record. -/
theorem evidenceOf_order_of_live (h : truth.ReportsLive textOf) :
    evidenceOf false (isTerminalRecord textOf) truth.order = .ok false := by
  obtain ⟨status, ⟨items, value, horder, hstatus, rfl⟩, hlive⟩ := h
  have htruthy : (Value.dict items).truthy = true := by
    cases items with
    | nil => simp at hstatus
    | cons _ _ => rfl
  simp [evidenceOf, guarded, horder, isTerminalRecord, htruthy, hstatus, bind, Except.bind, pure,
    Except.pure, hlive]

/-- **On a live record** the verdict is `ambiguous` exactly when the history proves no fill. -/
theorem assess_of_live (h : truth.ReportsLive textOf) (hkey : key ≠ "") :
    (∀ verdict, truth.assess textOf key = .ok verdict → verdict.state = .ambiguous) ↔
      ¬ truth.ProvesFill textOf key := by
  have hterminal := evidenceOf_order_of_live h
  constructor
  · rintro hambiguous ⟨-, ⟨candidateCount, horders⟩, page, size, hpage⟩
    have := hambiguous _ (assess_ok.mpr ⟨candidateCount, false, some size, horders, hterminal,
      evidenceOf_fills.mpr ⟨page, hpage⟩, rfl⟩)
    simp [verdictOf] at this
  · intro hno verdict hverdict
    obtain ⟨candidateCount, terminal, matchedSize, horders, hterm, hmatched, rfl⟩ :=
      assess_ok.mp hverdict
    obtain rfl : terminal = false := Except.ok.inj (hterm.symm.trans hterminal)
    cases matchedSize with
    | none => rfl
    | some size =>
      obtain ⟨page, hpage⟩ := evidenceOf_fills.mp hmatched
      exact absurd ⟨hkey, ⟨candidateCount, horders⟩, page, size, hpage⟩ hno

/-- **The events of one order** reduce to its verdict. -/
theorem reconciliationOutcome_lifecycle {life : OrderLifecycle} {decisionId : String}
    {presubmit : PreSubmitRecord} {state : UncertainSubmitState}
    (h : life.Records decisionId presubmit state) (hstate : state = .ambiguous) :
    (reconciliationOutcome life.events).1 = .ambiguous := by
  have hack : life.ack.ackStatus ≠ .dryRunNotSubmitted := h.ack_live
  have hids : submittedDecisionIds life.events = [decisionId] := by
    simp [submittedDecisionIds, OrderLifecycle.events, LifecycleEvent.submittedDecisionId?,
      List.filterMap_cons, hack, h.ack_decision]
  have hmatched : matchedStates life.events (decisionId, presubmit.venueOrderKey) =
      [.ambiguous] := by
    simp [matchedStates, OrderLifecycle.events, LifecycleEvent.reconciledState?,
      List.filterMap_cons, h.reconciliation_decision, h.reconciliation_key,
      h.reconciliation_state, hstate, reconciledState]
  have hkeys : collectSubmitKeys [decisionId] life.events [] =
      if presubmit.venueOrderKey = "" then none
      else some [(decisionId, presubmit.venueOrderKey)] := by
    simp [OrderLifecycle.events, collectSubmitKeys, h.attempt_decision, h.attempt_record]
  have hstates : collectStates life.events [(decisionId, presubmit.venueOrderKey)] =
      some [.ambiguous] := by
    simp [collectStates, hmatched]
  unfold reconciliationOutcome
  simp only [hids, hkeys, List.cons_ne_nil, if_false]
  split_ifs with hkey
  · rfl
  · simp [hstates]

end Verdict

/-- The attempt has a row, and the row freezes its session. -/
def Freezes (provider : Provider) (attemptId : String) : Prop :=
  ∃ row, provider.reservations.lookup attemptId = some row ∧
    row.unresolvedIn row.sessionIdentity = true

/-- The provider once the events of one order have settled its attempt. -/
def settleLifecycle (provider : Provider) (attemptId : String) (life : OrderLifecycle) : Provider :=
  provider.settle attemptId (reconciliationOutcome life.events).1
    (reconciliationOutcome life.events).2

theorem freezes_settle {provider : Provider} {attemptId : String} (key : Option String)
    (h : Freezes provider attemptId) :
    Freezes (provider.settle attemptId .ambiguous key) attemptId := by
  obtain ⟨row, hrow, -⟩ := h
  refine ⟨⟨row.sessionIdentity, .ambiguous, key <|> row.venueOrderKey⟩, ?_, by
    simp [Reservation.unresolvedIn]⟩
  simp [Provider.settle, hrow]

/-- An order whose record reports a live status is assessed `ambiguous`, and the events of its
lifecycle leave its reservation freezing. -/
def KeepsFreezing (adapter : Adapter) (presubmit : PreSubmitRecord) (w : World) : Prop :=
  (venueTruth adapter presubmit.venueOrderKey w.history).ReportsLive adapter.textOf →
    ∀ verdict, ((assessUncertainSubmit adapter presubmit).exec w).1 = .ok verdict →
      verdict.state = .ambiguous ∧
      ∀ life decisionId, OrderLifecycle.Records life decisionId presubmit verdict.state →
        ∀ provider attemptId, Freezes provider attemptId →
          Freezes (settleLifecycle provider attemptId life) attemptId

/-- **A live order keeps its reservation freezing** exactly when the fill history does not already
show a part of it. -/
theorem assess_keepsFreezing_iff (adapter : Adapter) (presubmit : PreSubmitRecord) (w : World) :
    KeepsFreezing adapter presubmit w ↔
      ¬ ((venueTruth adapter presubmit.venueOrderKey w.history).ReportsLive adapter.textOf ∧
        (venueTruth adapter presubmit.venueOrderKey w.history).ProvesFill adapter.textOf
          presubmit.venueOrderKey) := by
  have hexec := exec_assessUncertainSubmit adapter presubmit w
  constructor
  · rintro hkeeps ⟨hlive, hfill⟩
    rw [if_neg hfill.key_nonempty] at hexec
    refine (assess_of_live hlive hfill.key_nonempty).mp (fun verdict hverdict => ?_) hfill
    exact (hkeeps hlive verdict (hexec.trans hverdict)).1
  · intro hno hlive verdict hverdict
    have hstate : verdict.state = .ambiguous := by
      rw [hexec] at hverdict
      split_ifs at hverdict with hkey
      · rw [← Except.ok.inj hverdict]
      · exact (assess_of_live hlive hkey).mpr (fun hfill => hno ⟨hlive, hfill⟩) verdict hverdict
    refine ⟨hstate, fun life decisionId hrecords provider attemptId hfreezes => ?_⟩
    rw [settleLifecycle, reconciliationOutcome_lifecycle hrecords hstate]
    exact freezes_settle _ hfreezes

namespace PartFilled

/-- A venue where the order rests, and a trade filled one share of it. -/
def adapter : Adapter where
  getOrders := some fun _ _ => .ok (.list [.dict [("id", .str "key")]])
  getOrder := some fun _ _ => .ok (.dict [("status", .str "live")])
  getFillHistory := some fun _ _ => .ok (.list [.dict [("maker_orders",
    .list [.dict [("order_id", .str "key"), ("matched_amount", .int 1)]])]])
  cancelAllOrders := none
  cancelSingleOrder := none
  textOf _ := ""

/-- The record of the order. -/
def presubmit : PreSubmitRecord := ⟨"", "key", none⟩

/-- Nothing was asked before. -/
def start : World := ⟨[], { sessionId := "" }, 1⟩

end PartFilled

/-- A resting order that is part-filled is assessed `resolved`. -/
theorem assess_partFilled_resolved :
    ¬ KeepsFreezing PartFilled.adapter PartFilled.presubmit PartFilled.start := by
  intro h
  have hlive : (venueTruth PartFilled.adapter PartFilled.presubmit.venueOrderKey
      PartFilled.start.history).ReportsLive PartFilled.adapter.textOf :=
    ⟨"live", ⟨_, .str "live", rfl, rfl, by decide +kernel⟩, by decide +kernel⟩
  have hverdict : ((assessUncertainSubmit PartFilled.adapter PartFilled.presubmit).exec
      PartFilled.start).1 = .ok ⟨.resolved, "key",
        ["get_orders", "get_order", "get_fill_history"], 1, 1⟩ := by
    decide +kernel
  have := (h hlive _ hverdict).1
  simp at this

/-! ## The replacement of an order that may be live -/

/-- What the reads that follow the cancel answer. -/
def replacedTruth (adapter : Adapter) (replaces : String) (history : List Call) : VenueTruth :=
  venueTruth adapter replaces
    (answered (.cancelSingleOrder replaces) history (adapter.cancelSingleOrder.map
      (· history replaces)))

/-- The reads prove the order gone and no size of it filled. -/
structure VenueTruth.Withdrawn (truth : VenueTruth) (textOf : Value → String) (key : String) :
    Prop where
  key_nonempty : key ≠ ""
  orders_read : ∃ candidateCount, evidenceOf 0 openCandidates truth.orders = .ok candidateCount
  terminal : ∃ status, truth.Reports textOf status ∧ status ∈ terminalOrderStatuses
  no_size : evidenceOf none (filledSize textOf · key) truth.fills = .ok none

section Replace

variable {adapter : Adapter} {ctx : LifecycleContext} {resting : RestingOrder} {replaces : String}
  {w w' : World}

/-- **The withdrawal test** over the answers of its three reads. -/
theorem oldOrderTerminalWithdrawn_true :
    ((oldOrderTerminalWithdrawn adapter replaces).exec w).1 = .ok true ↔
      (venueTruth adapter replaces w.history).Withdrawn adapter.textOf replaces := by
  have hexec := exec_assessUncertainSubmit adapter ⟨"", replaces, none⟩ w
  have hrun : ((oldOrderTerminalWithdrawn adapter replaces).exec w).1 = .ok true ↔
      ∃ verdict, ((assessUncertainSubmit adapter ⟨"", replaces, none⟩).exec w).1 = .ok verdict ∧
        verdict.state = .resolved ∧ verdict.matchedFillSize ≤ 0 := by
    unfold oldOrderTerminalWithdrawn reconcileAfterSubmit
    rw [Prog.exec_bind, Prog.exec_bind]
    rcases (assessUncertainSubmit adapter ⟨"", replaces, none⟩).exec w with ⟨e | verdict, t⟩
    · simp
    · simp
  rw [hrun, hexec]
  constructor
  · rintro ⟨verdict, hverdict, hresolved, hsize⟩
    split_ifs at hverdict with hkey
    · simp [← Except.ok.inj hverdict] at hresolved
    obtain ⟨candidateCount, terminal, matchedSize, horders, hterminal, hmatched, rfl⟩ :=
      assess_ok.mp hverdict
    cases matchedSize with
    | some size =>
      obtain ⟨page, -, hpage⟩ := evidenceOf_fills.mp hmatched
      exact absurd hsize (not_le.mpr (filledSize_pos hpage))
    | none =>
      cases terminal with
      | false => simp [verdictOf] at hresolved
      | true => exact ⟨hkey, ⟨candidateCount, horders⟩,
          isTerminalRecord_reports.mp (evidenceOf_order.mp hterminal), hmatched⟩
  · rintro ⟨hkey, ⟨candidateCount, horders⟩, hterminal, hmatched⟩
    rw [if_neg hkey]
    refine ⟨_, assess_ok.mpr ⟨candidateCount, true, none, horders,
      evidenceOf_order.mpr (isTerminalRecord_reports.mpr hterminal), hmatched, rfl⟩, ?_⟩
    simp [verdictOf]

/-- An order was placed. -/
def Submitted (w w' : World) : Prop :=
  ∃ own order answer, w'.history = w.history ++ own ∧ .submitOrder order answer ∈ own

theorem Quiet.not_submitted (h : Quiet w w') : ¬ Submitted w w' := by
  rintro ⟨own, order, answer, hown, hmem⟩
  obtain ⟨new, hnew, hquiet⟩ := h.1
  obtain rfl := List.append_cancel_left (hown.symm.trans hnew)
  have := hquiet _ hmem
  simp [Call.isQuiet, Call.isSubmit] at this

theorem Places.submitted {order : WireOrder} {before : List Call} (h : Places order before w w') :
    Submitted w w' := by
  obtain ⟨answer, after, hw', -⟩ := h
  exact ⟨_, order, answer, hw', by simp⟩

/-- A resting order's price passes the check of its intent. -/
theorem RestingOrder.placeable {arming : ModeBArming} {auth : PrivyAuthContext}
    (h : CanWrite ctx arming auth) : Placeable ctx resting.lifecycleOrder arming auth := by
  have hprice : 0 ≤ resting.nativePrice ∧ resting.nativePrice ≤ 1 :=
    ⟨resting.price_inside.1.le, resting.price_inside.2.le⟩
  exact ⟨h, ⟨resting.nativePrice, hprice⟩, dif_pos hprice⟩

/-- A live maker's lifecycle places its order exactly when it can write. -/
theorem emitRestingLifecycle_submitted (resting : RestingOrder) (hmode : ctx.mode = .liveGuarded) :
    (∃ arming auth, CanWrite ctx arming auth ∧ Places
      (resting.lifecycleOrder.wire ctx.tickSize arming auth) [] w
      ((emitRestingLifecycle ctx resting).exec w).2) ∨
    ((¬ ∃ arming auth, CanWrite ctx arming auth) ∧
      Quiet w ((emitRestingLifecycle ctx resting).exec w).2) := by
  have hworld : ((emitRestingLifecycle ctx resting).exec w).2 =
      ((emitLifecycle ctx resting.lifecycleOrder).exec w).2 := by
    unfold emitRestingLifecycle
    rw [Prog.exec_bind]
    rcases (emitLifecycle ctx resting.lifecycleOrder).exec w with ⟨e | out, t⟩ <;> rfl
  rw [hworld]
  rcases h : (emitLifecycle ctx resting.lifecycleOrder).exec w with ⟨r, w'⟩
  rcases emitLifecycle_live hmode h with
    ⟨arming, auth, hplaceable, hplaces, -⟩ | ⟨hnot, hquiet, -⟩
  · exact .inl ⟨arming, auth, hplaceable.toCanWrite, hplaces⟩
  · exact .inr ⟨fun ⟨arming, auth, hwrite⟩ => hnot ⟨arming, auth, RestingOrder.placeable hwrite⟩,
      hquiet⟩

/-- The cancel returns, and the reads that follow it prove the order withdrawn. -/
theorem cancelOldOrder_withdrawn :
    (∃ canceled, ((cancelOldOrder adapter replaces).exec w).1 = .ok (canceled, true)) ↔
      (∃ cancel response, adapter.cancelSingleOrder = some cancel ∧
        cancel w.history replaces = .ok response) ∧
      (replacedTruth adapter replaces w.history).Withdrawn adapter.textOf replaces := by
  unfold cancelOldOrder replacedTruth
  cases hcancel : adapter.cancelSingleOrder with
  | none => simp
  | some cancel =>
    let called := w.record (.cancelSingleOrder replaces (cancel w.history replaces))
    have htest : ((oldOrderTerminalWithdrawn adapter replaces).exec called).1 = .ok true ↔ _ :=
      oldOrderTerminalWithdrawn_true
    have hask : (ask cancel replaces (.cancelSingleOrder replaces)).exec w =
        (cancel w.history replaces, called) := exec_ask _ _ _ _
    cases hresponse : cancel w.history replaces with
    | error e =>
      rw [hresponse] at hask
      simp only [Prog.exec_bind_error hask]
      simp [hresponse]
    | ok response =>
      rw [hresponse] at hask
      have hhistory : answered (.cancelSingleOrder replaces) w.history
          ((some cancel).map (· w.history replaces)) = called.history := rfl
      have hexists : ∃ cancel' response', some cancel = some cancel' ∧
          cancel' w.history replaces = .ok response' := ⟨cancel, response, rfl, hresponse⟩
      rw [hhistory, ← htest]
      simp only [hexists, true_and, Prog.exec_bind_ok hask, Prog.exec_bind]
      rcases (oldOrderTerminalWithdrawn adapter replaces).exec called with ⟨e | withdrawn, t⟩
      · simp
      · cases withdrawn <;> simp

/-- **When a live cancel-replace places its replacement**: the cancel returned, the reads prove the
old order withdrawn, and the write port is there. -/
theorem emitCancelReplace_submitted (hmode : ctx.mode = .liveGuarded) :
    Submitted w ((emitCancelReplaceLifecycle ctx resting replaces).exec w).2 ↔
      ((∃ cancel response, ctx.seams.adapter.cancelSingleOrder = some cancel ∧
        cancel w.history replaces = .ok response) ∧
      (replacedTruth ctx.seams.adapter replaces w.history).Withdrawn ctx.seams.adapter.textOf
        replaces) ∧
      ∃ arming auth, CanWrite ctx arming auth := by
  rw [← cancelOldOrder_withdrawn]
  have hquiet := quiet_cancelOldOrder ctx.seams.adapter replaces w
  unfold emitCancelReplaceLifecycle
  simp only [hmode, true_and]
  rw [Prog.exec_bind]
  generalize (cancelOldOrder ctx.seams.adapter replaces).exec w = old at hquiet ⊢
  rcases old with ⟨e | ⟨canceled, withdrawn⟩, t⟩
  · simp [Quiet.not_submitted hquiet]
  · have ht : Quiet w { t with nextSeq := t.nextSeq + 1 } :=
      IsTrans.trans _ _ _ hquiet (quiet_nextSeq t)
    simp only [Prog.exec_bind_ok (exec_nextSeq t)]
    cases withdrawn with
    | false => simp [Quiet.not_submitted ht]
    | true =>
      have hworld (cancelEvent : LifecycleEvent) (u : World) :
          ((do
            let out ← emitRestingLifecycle ctx resting
            return (out.1, cancelEvent :: out.2) : Lane _).exec u).2 =
          ((emitRestingLifecycle ctx resting).exec u).2 := by
        rw [Prog.exec_bind]
        rcases (emitRestingLifecycle ctx resting).exec u with ⟨e | out, v⟩ <;> rfl
      simp only [Bool.true_eq_false, if_false, hworld]
      rcases emitRestingLifecycle_submitted resting hmode with
        ⟨arming, auth, hwrite, hplaces⟩ | ⟨hnot, hrest⟩
      · obtain ⟨pre, -, hplaces⟩ := hplaces.of_quiet ht
        simp only [hplaces.submitted, true_iff]
        exact ⟨⟨canceled, rfl⟩, arming, auth, hwrite⟩
      · simp only [hnot, and_false, iff_false]
        exact Quiet.not_submitted (IsTrans.trans _ _ _ ht hrest)

/-- The old order is gone and was never filled: its record reports a withdrawn status, and no trade
names it. -/
structure VenueTruth.NeverFilled (truth : VenueTruth) (textOf : Value → String) (key : String) :
    Prop where
  withdrawn : ∃ status, truth.Reports textOf status ∧ status ∈ withdrawnStatuses
  no_trade : ¬ truth.TradeNames textOf key

/-- The replacement goes on top of a fill: the reads pass the withdrawal test, though the record
reports a fill or a trade names the order. -/
structure StacksOnFill (ctx : LifecycleContext) (replaces : String) (w : World) : Prop where
  canceled : ∃ cancel response, ctx.seams.adapter.cancelSingleOrder = some cancel ∧
    cancel w.history replaces = .ok response
  writable : ∃ arming auth, CanWrite ctx arming auth
  withdrawn : (replacedTruth ctx.seams.adapter replaces w.history).Withdrawn
    ctx.seams.adapter.textOf replaces
  filled : (∃ status, (replacedTruth ctx.seams.adapter replaces w.history).Reports
      ctx.seams.adapter.textOf status ∧ status ∈ fillStatuses) ∨
    (replacedTruth ctx.seams.adapter replaces w.history).TradeNames ctx.seams.adapter.textOf
      replaces

theorem disjoint_statuses {status : String} (hfill : status ∈ fillStatuses)
    (hwithdrawn : status ∈ withdrawnStatuses) : False := by
  simp only [fillStatuses, withdrawnStatuses, List.mem_cons, List.not_mem_nil, or_false]
    at hfill hwithdrawn
  rcases hfill with rfl | rfl <;> simp at hwithdrawn

/-- **A live cancel-replace replaces only an order that was never filled** exactly when its reads do
not pass the withdrawal test on an order that was. -/
theorem emitCancelReplace_withdrawn_iff (ctx : LifecycleContext) (hmode : ctx.mode = .liveGuarded)
    (resting : RestingOrder) (replaces : String) (w : World) :
    (Submitted w ((emitCancelReplaceLifecycle ctx resting replaces).exec w).2 →
      (replacedTruth ctx.seams.adapter replaces w.history).NeverFilled ctx.seams.adapter.textOf
        replaces) ↔ ¬ StacksOnFill ctx replaces w := by
  rw [emitCancelReplace_submitted hmode]
  constructor
  · rintro h ⟨hcanceled, hwritable, hwithdrawn, hfilled⟩
    obtain ⟨⟨status, hreports, hstatus⟩, hnoTrade⟩ := h ⟨⟨hcanceled, hwithdrawn⟩, hwritable⟩
    rcases hfilled with ⟨status', hreports', hstatus'⟩ | htrade
    · obtain rfl := hreports.unique hreports'
      exact disjoint_statuses hstatus' hstatus
    · exact hnoTrade htrade
  · rintro hno ⟨⟨hcanceled, hwithdrawn⟩, hwritable⟩
    obtain ⟨status, hreports, hterminal⟩ := hwithdrawn.terminal
    refine ⟨⟨status, hreports, ?_⟩, fun htrade => ?_⟩
    · refine (mem_terminalOrderStatuses.mp hterminal).resolve_left fun hfill => ?_
      exact hno ⟨hcanceled, hwritable, hwithdrawn, .inl ⟨status, hreports, hfill⟩⟩
    · exact hno ⟨hcanceled, hwritable, hwithdrawn, .inr htrade⟩

end Replace

namespace FilledOrder

/-- A venue that reports the old order filled, and offers no fill history. -/
def adapter : Adapter where
  getOrders := some fun _ _ => .ok (.list [])
  getOrder := some fun _ _ => .ok (.dict [("status", .str "filled")])
  getFillHistory := none
  cancelAllOrders := none
  cancelSingleOrder := some fun _ _ => .ok (.dict [("canceled", .list [])])
  textOf _ := ""

def context : LifecycleContext where
  seams :=
    { adapter := adapter
      signer := ⟨.privyEvm, fun _ _ => .ok "digest"⟩
      readQuote := fun _ tokenId => .ok { tokenId, quoteTsS := 0 }
      nowFn := fun _ _ => .ok 0
      clockMs := fun _ => 0 }
  mode := .liveGuarded
  nowS := 0
  tickSize := .fin (1 / 100)
  arming := some ArmedRun.arming
  sourceTs := 0

/-- One share at one half, good till cancelled. -/
def replacement : RestingOrder where
  tokenId := "token"
  side := .buy
  size := 1
  nativePrice := 1 / 2
  tickSize := .fin (1 / 100)
  tif := .gtc
  postOnly := true
  gtdExpirationTs := none
  clientOrderId := "replacement"
  size_pos := by norm_num
  price_inside := by norm_num
  clientOrderId_nonempty := by simp
  tif_coherent := .inl ⟨rfl, rfl⟩

end FilledOrder

/-- The equivalence at a venue that reports the old order filled. -/
theorem emitCancelReplace_withdrawn_iff_filled :
    (Submitted PartFilled.start ((emitCancelReplaceLifecycle FilledOrder.context
        FilledOrder.replacement "old").exec PartFilled.start).2 →
      (replacedTruth FilledOrder.adapter "old" PartFilled.start.history).NeverFilled
        FilledOrder.adapter.textOf "old") ↔
    ¬ StacksOnFill FilledOrder.context "old" PartFilled.start :=
  emitCancelReplace_withdrawn_iff FilledOrder.context rfl FilledOrder.replacement "old"
    PartFilled.start

/-- An order reported as filled is replaced when there is no fill history. -/
theorem emitCancelReplace_replaces_filled :
    ¬ (Submitted PartFilled.start ((emitCancelReplaceLifecycle FilledOrder.context
        FilledOrder.replacement "old").exec PartFilled.start).2 →
      (replacedTruth FilledOrder.adapter "old" PartFilled.start.history).NeverFilled
        FilledOrder.adapter.textOf "old") := by
  have hreports : (replacedTruth FilledOrder.adapter "old" PartFilled.start.history).Reports
      FilledOrder.adapter.textOf "filled" :=
    ⟨_, .str "filled", rfl, rfl, by decide +kernel⟩
  intro h
  obtain ⟨⟨status, hstatus, hwithdrawn⟩, -⟩ := h <| (emitCancelReplace_submitted rfl).mpr
    ⟨⟨⟨_, _, rfl, rfl⟩, ⟨by decide, ⟨0, rfl⟩, ⟨"filled", hreports, by decide⟩, rfl⟩⟩,
      ArmedRun.arming, ⟨0, [], 1, "attempt"⟩, rfl, rfl, rfl⟩
  obtain rfl := hreports.unique hstatus
  exact disjoint_statuses (by decide) hwithdrawn

end Veridex.DustExecution
