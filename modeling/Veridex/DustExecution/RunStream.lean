import Veridex.DustExecution.Facade
import Veridex.DustExecution.RunGates

/-!
# The order counts and the numbered stream of a run

A run counts an order when its decision placed one or, in a dry run, would have. The caps are checked
before the decision, on the count so far, so the last counted order was below every cap
(`runTokens_counts`). The events are numbered by one counter, which every path that allocates a
number also emits an event for: a stage advances it by the length of the stream it returns
(`Numbered`).

Results: `runDustExecution_stream`.
-/

namespace Veridex.DustExecution

open Veridex.Py Veridex.Lib

/-! ## The sequence counter -/

/-- The sequence counter is left alone. -/
def SeqKept (w w' : World) : Prop := w'.nextSeq = w.nextSeq

instance : Std.Refl SeqKept := ⟨fun _ => rfl⟩

instance : IsTrans World SeqKept := ⟨fun _ _ _ h h' => Eq.trans h' h⟩

section SeqKept

variable {α β : Type}

theorem seqKept_ask {surface : Surface α β} {arg : α} {entry : Except PyExc β → Call} :
    Prog.Keeps SeqKept (ask surface arg entry) := fun w => by
  rw [exec_ask]
  rfl

theorem seqKept_assessUncertainSubmit (adapter : Adapter) (record : PreSubmitRecord) :
    Prog.Keeps SeqKept (assessUncertainSubmit adapter record) :=
  keeps_assessUncertainSubmit (fun _ => seqKept_ask) (fun _ _ => seqKept_ask)
    (fun _ _ => seqKept_ask) adapter record

theorem seqKept_reconcileAfterSubmit (adapter : Adapter) (presubmit : PreSubmitRecord) :
    Prog.Keeps SeqKept (reconcileAfterSubmit adapter presubmit) :=
  Prog.keeps_bind (seqKept_assessUncertainSubmit adapter presubmit) fun _ => Prog.keeps_pure _

theorem seqKept_cancelOldOrder (adapter : Adapter) (replaces : String) :
    Prog.Keeps SeqKept (cancelOldOrder adapter replaces) := by
  unfold cancelOldOrder
  split
  · exact Prog.keeps_throw _
  · refine Prog.keeps_bind seqKept_ask fun response => ?_
    refine Prog.keeps_bind ?_ fun withdrawn => Prog.keeps_pure _
    exact Prog.keeps_bind (seqKept_reconcileAfterSubmit _ _) fun _ => Prog.keeps_pure _

theorem seqKept_placeOrder (ctx : LifecycleContext) (order : LifecycleOrder) (price : UnitPrice) :
    Prog.Keeps SeqKept (placeOrder ctx order price) := by
  unfold placeOrder
  cases ctx.mode with
  | dryRun => exact Prog.keeps_bind seqKept_ask fun _ => Prog.keeps_pure _
  | liveGuarded =>
    simp only
    split
    · exact Prog.keeps_throw _
    · split
      · exact Prog.keeps_bind seqKept_ask fun _ => Prog.keeps_pure _
      · exact Prog.keeps_throw _

theorem seqKept_readQuote (seams : Seams) (tokenId : String) :
    Prog.Keeps SeqKept (readQuote seams tokenId) := by
  unfold readQuote
  refine Prog.keeps_tryCatch (Prog.keeps_bind seqKept_ask fun _ => Prog.keeps_pure _) fun e => ?_
  split_ifs
  · exact Prog.keeps_pure _
  · exact Prog.keeps_throw _

theorem seqKept_finishCancelAll (seams : Seams) (cause : CancelAllCause) (sweep : Surface Unit ℤ)
    (entry : CancelAllEntry) : Prog.Keeps SeqKept (finishCancelAll seams cause sweep entry) := by
  have hset (session : DustSafetySession) : Prog.Keeps SeqKept (setSession session) :=
    Prog.keeps_modify fun _ => rfl
  cases entry with
  | noop ack session => exact Prog.keeps_bind (hset session) fun _ => Prog.keeps_pure _
  | sweeping session =>
    refine Prog.keeps_bind (hset session) fun _ => ?_
    refine Prog.keeps_bind seqKept_ask fun canceledCount => ?_
    refine Prog.keeps_bind Prog.keeps_get fun w => ?_
    exact Prog.keeps_bind (hset _) fun _ => Prog.keeps_pure _

theorem seqKept_cancelAllAndBlock (seams : Seams) (cause : CancelAllCause)
    (sweep : Surface Unit ℤ) : Prog.Keeps SeqKept (cancelAllAndBlock seams cause sweep) :=
  Prog.keeps_bind Prog.keeps_get fun _ => seqKept_finishCancelAll seams cause sweep _

theorem seqKept_trigger (seams : Seams) (fires : Bool) (cause : CancelAllCause) :
    Prog.Keeps SeqKept (trigger seams fires cause) :=
  keeps_trigger (seqKept_cancelAllAndBlock seams) fires cause

theorem seqKept_applySafetyTriggers (inputs : RunInputs) (risk : RiskAccumulator) :
    Prog.Keeps SeqKept (applySafetyTriggers inputs risk) :=
  keeps_applySafetyTriggers (seqKept_cancelAllAndBlock inputs.seams) risk

theorem seqKept_modeBArmingBlockReason {digests : Digests} {arming : Option ModeBArming}
    {manifest : StrategyExperimentManifest} {envelope : Policy.PolicyEnvelope} {signer : Signer}
    {sessionId : String} {store : Option OperatorInterlockStore} :
    Prog.Keeps SeqKept
      (modeBArmingBlockReason digests arming manifest envelope signer sessionId store) := by
  unfold modeBArmingBlockReason
  cases arming with
  | none => exact Prog.keeps_pure _
  | some arming =>
    simp only
    split
    · exact Prog.keeps_pure _
    · split
      · split_ifs
        · exact Prog.keeps_pure _
        · refine Prog.keeps_bind seqKept_ask fun verified => ?_
          split_ifs <;> exact Prog.keeps_pure _
      · exact Prog.keeps_pure _

theorem seqKept_decideGates (inputs : RunInputs) (risk : RiskAccumulator)
    (admission : StrategyAuthorizationDecision) :
    Prog.Keeps SeqKept (decideGates inputs risk admission) := by
  have harming : Prog.Keeps SeqKept (armingBlockReason inputs inputs.startSession.sessionId) := by
    unfold armingBlockReason
    cases inputs.mode with
    | liveGuarded => exact seqKept_modeBArmingBlockReason
    | dryRun => exact Prog.keeps_pure _
  refine Prog.keeps_bind harming fun arming => ?_
  exact Prog.keeps_bind (Prog.keeps_ofExcept _) fun wireSize => Prog.keeps_pure _

theorem seqKept_startupOpenOrderSweep (seams : Seams) (enforce : Bool) :
    Prog.Keeps SeqKept (startupOpenOrderSweep seams enforce) := by
  have hread : Prog.Keeps SeqKept (readStartupOpenOrders seams.adapter) := by
    refine Prog.keeps_bind (fun w => ?_) fun answer => ?_
    · rw [exec_readSurface]
      rfl
    · split <;> exact Prog.keeps_pure _
  have hblock : Prog.Keeps SeqKept (blockOnUnknown seams) := by
    unfold blockOnUnknown
    split
    · exact Prog.keeps_bind (seqKept_cancelAllAndBlock _ _ _) fun _ => Prog.keeps_pure _
    · exact Prog.keeps_modify fun _ => rfl
  refine Prog.keeps_bind hread fun orders => ?_
  cases orders with
  | none =>
    simp only
    split_ifs
    · exact Prog.keeps_bind hblock fun _ => Prog.keeps_pure _
    · exact Prog.keeps_pure _
  | some orders => exact Prog.keeps_bind (seqKept_trigger _ _ _) fun _ => Prog.keeps_pure _

theorem seqKept_applyShutdownDecision (inputs : RunInputs) :
    Prog.Keeps SeqKept (applyShutdownDecision inputs) := by
  unfold applyShutdownDecision
  split_ifs
  · refine Prog.keeps_bind Prog.keeps_get fun w => ?_
    exact Prog.keeps_bind (seqKept_trigger _ _ _) fun _ => Prog.keeps_pure _
  · exact Prog.keeps_pure _

end SeqKept

/-! ## Numbered streams -/

/-- The stream carries the next numbers of the counter, one each. -/
def Numbered (events : List LifecycleEvent) (w w' : World) : Prop :=
  events.map LifecycleEvent.sequenceNo = List.range' w.nextSeq events.length ∧
    w'.nextSeq = w.nextSeq + events.length

theorem SeqKept.numbered {w w' : World} (h : SeqKept w w') : Numbered [] w w' := ⟨rfl, h⟩

theorem Numbered.append {events events' : List LifecycleEvent} {w u w' : World}
    (h : Numbered events w u) (h' : Numbered events' u w') : Numbered (events ++ events') w w' := by
  obtain ⟨hevents, hu⟩ := h
  obtain ⟨hevents', hw'⟩ := h'
  constructor
  · rw [List.map_append, hevents, hevents', hu, List.length_append, ← List.range'_append_1]
  · rw [hw', hu, List.length_append, Nat.add_assoc]

theorem Numbered.after {events : List LifecycleEvent} {w u w' : World} (h : SeqKept w u)
    (h' : Numbered events u w') : Numbered events w w' := h.numbered.append h'

/-- The five events are about one decision, on the token it is for. -/
structure OrderLifecycle.RecordsDecision (life : OrderLifecycle) (decision : SubmitDecision) :
    Prop where
  token : life.intent.tokenId = decision.tokenId
  attempt : life.attempt.decisionId = life.intent.decisionId
  ack : life.ack.decisionId = life.intent.decisionId
  status : life.status.decisionId = life.intent.decisionId
  reconciliation : life.reconciliation.decisionId = life.intent.decisionId

/-- What a decision contributes to the stream: nothing, the cancel of an order that was not seen to
be gone, or the five events of its order, with that cancel in front where it replaces one. -/
inductive TokenStream (decision : SubmitDecision) : List LifecycleEvent → Prop
  | abstained (hnot : decisionPlaced decision = false) : TokenStream decision []
  | oldOrderLive (hnot : decisionPlaced decision = false) (cancel : OrderCancelEvent) :
      TokenStream decision [.orderCancelEvent cancel]
  | placed (hplaced : decisionPlaced decision = true) (life : OrderLifecycle)
      (hlife : life.RecordsDecision decision) : TokenStream decision life.events
  | replaced (hplaced : decisionPlaced decision = true) (cancel : OrderCancelEvent)
      (life : OrderLifecycle) (hlife : life.RecordsDecision decision) :
      TokenStream decision (.orderCancelEvent cancel :: life.events)

section Streams

variable {ctx : LifecycleContext} {order : LifecycleOrder} {w w' : World}

theorem decisionPlaced_lifecycleDecision (tokenId : String) (response : Option Value)
    (venueOrderId : Option String) :
    decisionPlaced (lifecycleDecision tokenId response venueOrderId) = true := by
  cases response <;> simp [decisionPlaced, lifecycleDecision]

theorem decisionPlaced_abstain (tokenId : String) {reason : AbstainReason}
    (hreason : reason ≠ .modeANoOrders) : decisionPlaced (abstain tokenId reason) = false := by
  simp [decisionPlaced, abstain, hreason]

/-- **The lifecycle of an order** numbers its five events in the order they are emitted. -/
theorem emitLifecycle_numbered {decision : SubmitDecision} {life : OrderLifecycle}
    (h : (emitLifecycle ctx order).exec w = (.ok (decision, life), w')) :
    decisionPlaced decision = true ∧ life.RecordsDecision decision ∧
      Numbered life.events w w' := by
  unfold emitLifecycle at h
  rw [Prog.exec_bind_ok (exec_nextSeq w)] at h
  obtain ⟨price, -, h⟩ := Prog.exec_ofExcept_returned h
  obtain ⟨⟨presubmit, response⟩, u, hplace, h⟩ := Prog.exec_bind_returned h
  have hu : u.nextSeq = w.nextSeq + 1 := (seqKept_placeOrder _ _ _).of_exec hplace
  unfold completeLifecycle at h
  rw [Prog.exec_bind_ok (exec_nextSeq u)] at h
  obtain ⟨⟨venueOrderId, ackStatus⟩, -, h⟩ := Prog.exec_ofExcept_returned h
  rw [Prog.exec_bind_ok (exec_nextSeq _)] at h
  obtain ⟨⟨state, matchedFillSize⟩, v, hrec, h⟩ := Prog.exec_bind_returned h
  have hv : v.nextSeq = u.nextSeq + 1 + 1 := (seqKept_reconcileAfterSubmit _ _).of_exec hrec
  rw [Prog.exec_bind_ok (exec_nextSeq v), Prog.exec_bind_ok (exec_nextSeq _)] at h
  obtain ⟨hout, rfl⟩ := Prod.mk.inj h
  obtain ⟨rfl, rfl⟩ := Prod.mk.inj (Except.ok.inj hout)
  refine ⟨decisionPlaced_lifecycleDecision _ _ _, ⟨rfl, rfl, rfl, rfl, rfl⟩, ?_, ?_⟩
  · simp [OrderLifecycle.events, LifecycleEvent.sequenceNo, List.range'_succ, hv, hu]
  · simp [OrderLifecycle.events, hv, hu]

/-- What one token returns: its stream, numbered. -/
def TokenOut (w w' : World) (out : SubmitDecision × List LifecycleEvent) : Prop :=
  TokenStream out.1 out.2 ∧ Numbered out.2 w w'

theorem tokenOut_abstain (tokenId : String) {reason : AbstainReason}
    (hreason : reason ≠ .modeANoOrders) (h : SeqKept w w') :
    TokenOut w w' (abstain tokenId reason, []) :=
  ⟨.abstained (decisionPlaced_abstain tokenId hreason), h.numbered⟩

theorem TokenOut.after {u : World} {out : SubmitDecision × List LifecycleEvent} (h : SeqKept w u)
    (h' : TokenOut u w' out) : TokenOut w w' out := ⟨h'.1, h'.2.after h⟩

theorem emitLifecycle_out {out : SubmitDecision × List LifecycleEvent}
    (h : (do
      let (decision, life) ← emitLifecycle ctx order
      return (decision, life.events) : Lane _).exec w = (.ok out, w')) : TokenOut w w' out := by
  obtain ⟨⟨decision, life⟩, t, hlife, h⟩ := Prog.exec_bind_returned h
  obtain ⟨hout, rfl⟩ := Prod.mk.inj h
  obtain rfl := Except.ok.inj hout
  obtain ⟨hplaced, hrecords, hnumbered⟩ := emitLifecycle_numbered hlife
  exact ⟨.placed hplaced life hrecords, hnumbered⟩

theorem emitOrderLifecycle_out {manifest : StrategyExperimentManifest} {quote : DustQuote}
    {side : Side} {tif : TimeInForce} {wireSize : ℚ} {out : SubmitDecision × List LifecycleEvent}
    (h : (emitOrderLifecycle ctx manifest quote side tif wireSize).exec w = (.ok out, w')) :
    TokenOut w w' out := by
  unfold emitOrderLifecycle at h
  split at h
  · exact emitLifecycle_out h
  · simp at h

theorem emitCancelReplaceLifecycle_out {resting : RestingOrder} {replaces : String}
    {out : SubmitDecision × List LifecycleEvent}
    (h : (emitCancelReplaceLifecycle ctx resting replaces).exec w = (.ok out, w')) :
    TokenOut w w' out := by
  -- the cancel event takes the number allocated after the old order was asked about
  have hcancel {t : World} (ht : SeqKept w t) (cancel : OrderCancelEvent)
      (hseq : cancel.sequenceNo = t.nextSeq) :
      Numbered [.orderCancelEvent cancel] w { t with nextSeq := t.nextSeq + 1 } :=
    Numbered.after ht ⟨by simp [LifecycleEvent.sequenceNo, hseq], rfl⟩
  have hrest {t : World} (ht : SeqKept w t) (cancel : OrderCancelEvent)
      (hseq : cancel.sequenceNo = t.nextSeq)
      (h : (do
        let out ← emitRestingLifecycle ctx resting
        return (out.1, .orderCancelEvent cancel :: out.2) : Lane _).exec
          { t with nextSeq := t.nextSeq + 1 } = (.ok out, w')) : TokenOut w w' out := by
    obtain ⟨⟨decision, events⟩, u, hrest, h⟩ := Prog.exec_bind_returned h
    obtain ⟨hout, rfl⟩ := Prod.mk.inj h
    obtain rfl := Except.ok.inj hout
    obtain ⟨⟨decision', life⟩, v, hlife, hrest⟩ := Prog.exec_bind_returned hrest
    obtain ⟨hout, rfl⟩ := Prod.mk.inj hrest
    obtain ⟨rfl, rfl⟩ := Prod.mk.inj (Except.ok.inj hout)
    obtain ⟨hplaced, hrecords, hnumbered⟩ := emitLifecycle_numbered hlife
    exact ⟨.replaced hplaced _ life hrecords, (hcancel ht cancel hseq).append hnumbered⟩
  unfold emitCancelReplaceLifecycle at h
  cases hmode : ctx.mode with
  | dryRun =>
    rw [hmode] at h
    simp only [pure_bind, reduceCtorEq, false_and, if_false] at h
    rw [Prog.exec_bind_ok (exec_nextSeq w)] at h
    exact hrest (Std.Refl.refl _) _ rfl h
  | liveGuarded =>
    rw [hmode] at h
    obtain ⟨⟨canceled, withdrawn⟩, t, hold, h⟩ := Prog.exec_bind_returned h
    have ht : SeqKept w t := (seqKept_cancelOldOrder _ _).of_exec hold
    rw [Prog.exec_bind_ok (exec_nextSeq t)] at h
    simp only [true_and] at h
    split_ifs at h
    · obtain ⟨hout, rfl⟩ := Prod.mk.inj h
      obtain rfl := Except.ok.inj hout
      exact ⟨.oldOrderLive (decisionPlaced_abstain _ (by simp)) _, hcancel ht _ rfl⟩
    · exact hrest ht _ rfl h

end Streams

/-! ## One token -/

section Token

variable {inputs : RunInputs} {gates : RunGates} {orderCap : Option AbstainReason}
  {tokenId : String} {quote : DustQuote} {nowS : ℤ} {w w' : World}
  {out : SubmitDecision × List LifecycleEvent}

theorem unlessCrossing_out {side : Side} {price : PyFloat} {proposed : String}
    {place : Lane (SubmitDecision × List LifecycleEvent)}
    (hplace : ∀ {u : World}, place.exec w = (.ok out, u) → TokenOut w u out)
    (h : (unlessCrossing inputs tokenId side price proposed place).exec w = (.ok out, w')) :
    TokenOut w w' out := by
  unfold unlessCrossing at h
  obtain ⟨reason, hgate, h⟩ := Prog.exec_ofExcept_returned h
  cases reason with
  | some reason =>
    obtain rfl := nonCrossingGate_some hgate
    obtain ⟨hout, rfl⟩ := Prod.mk.inj h
    obtain rfl := Except.ok.inj hout
    exact tokenOut_abstain _ (by simp) (Std.Refl.refl _)
  | none => exact hplace h

theorem dispatchTake_out
    (h : (dispatchTake inputs gates tokenId quote nowS).exec w = (.ok out, w')) :
    TokenOut w w' out := by
  unfold dispatchTake at h
  split at h
  · obtain ⟨hout, rfl⟩ := Prod.mk.inj h
    obtain rfl := Except.ok.inj hout
    exact tokenOut_abstain _ (by simp) (Std.Refl.refl _)
  · split at h
    · exact unlessCrossing_out (fun hplace => emitOrderLifecycle_out hplace) h
    · simp at h

theorem emitMaker_out {resting : RestingOrder}
    (h : (emitMaker inputs gates tokenId quote nowS resting).exec w = (.ok out, w')) :
    TokenOut w w' out := by
  have hinvalid {u : World}
      (h : (pure (abstain tokenId .intentParamsInvalid, []) : Lane _).exec w = (.ok out, u)) :
      TokenOut w u out := by
    obtain ⟨hout, rfl⟩ := Prod.mk.inj h
    obtain rfl := Except.ok.inj hout
    exact tokenOut_abstain _ (by simp) (Std.Refl.refl _)
  unfold emitMaker at h
  simp only at h
  split_ifs at h
  · split at h
    · split_ifs at h
      · exact hinvalid h
      · exact emitCancelReplaceLifecycle_out h
    · exact hinvalid h
  · exact emitLifecycle_out h

theorem dispatchIntent_out
    (h : (dispatchIntent inputs gates tokenId quote nowS).exec w = (.ok out, w')) :
    TokenOut w w' out := by
  unfold dispatchIntent at h
  split_ifs at h
  · exact dispatchTake_out h
  · unfold dispatchMaker at h
    split at h
    · obtain ⟨hout, rfl⟩ := Prod.mk.inj h
      obtain rfl := Except.ok.inj hout
      exact tokenOut_abstain _ (by simp) (Std.Refl.refl _)
    · exact unlessCrossing_out (fun hplace => emitMaker_out hplace) h

/-- **One token**, in either mode: its stream is numbered, and it is counted only below the caps. -/
theorem decideAndSubmit_out (hgates : gates.Genuine) (hcap : orderCap ≠ some .modeANoOrders)
    (h : (decideAndSubmit inputs gates orderCap tokenId).exec w = (.ok out, w')) :
    TokenOut w w' out ∧ (decisionPlaced out.1 = true → orderCap = none) := by
  have habstain {reason : AbstainReason} {u v : World} (hreason : reason ≠ .modeANoOrders)
      (hu : SeqKept w u)
      (h : (pure (abstain tokenId reason, []) : Lane _).exec u = (.ok out, v)) :
      TokenOut w v out ∧ (decisionPlaced out.1 = true → orderCap = none) := by
    obtain ⟨hout, rfl⟩ := Prod.mk.inj h
    obtain rfl := Except.ok.inj hout
    exact ⟨tokenOut_abstain _ hreason hu, by simp [decisionPlaced_abstain tokenId hreason]⟩
  unfold decideAndSubmit at h
  cases hpre : preQuoteBlockReason inputs gates tokenId with
  | some reason =>
    rw [hpre] at h
    exact habstain (fun hr => preQuoteBlockReason_ne hgates (hpre.trans (congrArg _ hr)))
      (Std.Refl.refl _) h
  | none =>
    rw [hpre] at h
    obtain ⟨served, t, hread, h⟩ := Prog.exec_bind_returned h
    have ht : SeqKept w t := (seqKept_readQuote _ _).of_exec hread
    cases served with
    | none => exact habstain (by simp) ht h
    | some quote =>
      obtain ⟨now, u, hnow, h⟩ := Prog.exec_bind_returned h
      have hu : SeqKept w u := IsTrans.trans _ _ _ ht (seqKept_ask.of_exec hnow)
      rw [Prog.exec_bind_ok Prog.exec_get] at h
      cases hsubmit : submitBlockReason inputs gates orderCap quote now u.session with
      | some reason =>
        simp only [hsubmit] at h
        exact habstain
          (fun hr => submitBlockReason_ne hgates hcap (hsubmit.trans (congrArg _ hr))) hu h
      | none =>
        simp only [hsubmit] at h
        exact ⟨(dispatchIntent_out h).after hu, fun _ => (submitBlockReason_none hsubmit).2.2.2.2⟩

end Token

/-! ## The loop -/

section Loop

variable {inputs : RunInputs} {gates : RunGates}

/-- **The loop over the universe**, in either mode: each decision has its stream, the streams are
numbered one after the other, and the last counted order was below every cap. -/
theorem runTokens_counts (hgates : gates.Genuine) : ∀ {tokenIds : List String} {ordersThisRun : ℕ}
    {w w' : World} {decisions : List SubmitDecision} {events : List LifecycleEvent},
    (runTokens inputs gates tokenIds ordersThisRun).exec w = (.ok (decisions, events), w') →
      (∃ streams, events = streams.flatten ∧ List.Forall₂ TokenStream decisions streams) ∧
      Numbered events w w' ∧
      (decisions.countP decisionPlaced ≠ 0 →
        inputs.orderCap (ordersThisRun + (decisions.countP decisionPlaced - 1)) = none) := by
  intro tokenIds
  induction tokenIds with
  | nil =>
    intro ordersThisRun w w' decisions events h
    obtain ⟨hout, rfl⟩ := Prod.mk.inj h
    obtain ⟨rfl, rfl⟩ := Prod.mk.inj (Except.ok.inj hout)
    exact ⟨⟨[], rfl, .nil⟩, SeqKept.numbered (Std.Refl.refl _), by simp⟩
  | cons tokenId tokenIds ih =>
    intro ordersThisRun w w' decisions events h
    obtain ⟨⟨decision, tokenEvents⟩, u, htoken, h⟩ := Prog.exec_bind_returned h
    obtain ⟨⟨rest, restEvents⟩, v, hrest, h⟩ := Prog.exec_bind_returned h
    obtain ⟨hout, rfl⟩ := Prod.mk.inj h
    obtain ⟨rfl, rfl⟩ := Prod.mk.inj (Except.ok.inj hout)
    obtain ⟨⟨hstream, hnumbered⟩, hcap⟩ := decideAndSubmit_out hgates (orderCap_ne _) htoken
    obtain ⟨⟨streams, rfl, hstreams⟩, hnumbered', hcap'⟩ := ih hrest
    refine ⟨⟨tokenEvents :: streams, rfl, .cons hstream hstreams⟩, hnumbered.append hnumbered', ?_⟩
    intro hpos
    rw [List.countP_cons] at hpos ⊢
    -- the last counted order is in the rest, or it is this one
    by_cases hlast : rest.countP decisionPlaced = 0
    · have hplaced : decisionPlaced decision = true := by
        by_contra hnot
        simp [hlast, hnot] at hpos
      simpa [hlast, hplaced] using hcap hplaced
    · have hbelow := hcap' hlast
      have hcount : (if decisionPlaced decision then ordersThisRun + 1 else ordersThisRun) +
          (rest.countP decisionPlaced - 1) = ordersThisRun + (rest.countP decisionPlaced +
            (if decisionPlaced decision then 1 else 0) - 1) := by
        split_ifs <;> omega
      rw [hcount] at hbelow
      exact hbelow

/-! ## A dry run places nothing -/

section DryRun

variable {ctx : LifecycleContext} {tokenId : String} {quote : DustQuote} {nowS : ℤ}

/-- The calls of a dry run's loop: the reads, and the offline signature. -/
def Call.isOffline : Call → Bool
  | .now _ | .readQuote _ _ | .signOrder _ _ => true
  | .getOrders _ | .getOrder _ _ | .getFillHistory _ _ => true
  | _ => false

/-- A relation that the offline calls and the counter keep. -/
structure OfflineKept (R : World → World → Prop) : Prop where
  ask : ∀ {α β : Type} {surface : Surface α β} {arg : α} {entry : Except PyExc β → Call},
    (∀ answer, (entry answer).isOffline = true) → Prog.Keeps R (ask surface arg entry)
  nextSeq : Prog.Keeps R nextSeq

theorem Call.isQuiet_of_isOffline {call : Call} (h : call.isOffline = true) :
    call.isQuiet = true := by
  cases call with
  | submitOrder _ _ | cancelAllOrders _ | cancelSingleOrder _ _ | recordInterlock _ _
  | verifyInterlock _ _ _ => simp [isOffline] at h
  | _ => rfl

theorem offlineKept_quiet : OfflineKept Quiet where
  ask hoffline := quiet_ask fun answer => Call.isQuiet_of_isOffline (hoffline answer)
  nextSeq := quiet_nextSeq

section OfflineKept

variable {R : World → World → Prop} [Std.Refl R] [IsTrans World R] (hR : OfflineKept R)

include hR

theorem keeps_emitLifecycle_dryRun (hmode : ctx.mode = .dryRun) (order : LifecycleOrder) :
    Prog.Keeps R (emitLifecycle ctx order) := by
  refine Prog.keeps_bind hR.nextSeq fun intentSeq => ?_
  refine Prog.keeps_bind (Prog.keeps_ofExcept _) fun price => ?_
  refine Prog.keeps_bind ?_ fun placed => ?_
  · unfold placeOrder
    rw [hmode]
    exact Prog.keeps_bind (hR.ask fun _ => rfl) fun _ => Prog.keeps_pure _
  · refine Prog.keeps_bind hR.nextSeq fun attemptSeq => ?_
    refine Prog.keeps_bind (Prog.keeps_ofExcept _) fun ack => ?_
    refine Prog.keeps_bind hR.nextSeq fun ackSeq => ?_
    refine Prog.keeps_bind (Prog.keeps_bind (keeps_assessUncertainSubmit
      (fun _ => hR.ask fun _ => rfl) (fun _ _ => hR.ask fun _ => rfl)
      (fun _ _ => hR.ask fun _ => rfl) _ _) fun _ => Prog.keeps_pure _) fun verdict => ?_
    refine Prog.keeps_bind hR.nextSeq fun statusSeq => ?_
    exact Prog.keeps_bind hR.nextSeq fun reconciliationSeq => Prog.keeps_pure _

theorem keeps_emitCancelReplaceLifecycle_dryRun (hmode : ctx.mode = .dryRun)
    (resting : RestingOrder) (replaces : String) :
    Prog.Keeps R (emitCancelReplaceLifecycle ctx resting replaces) := by
  unfold emitCancelReplaceLifecycle
  rw [hmode]
  simp only [pure_bind, reduceCtorEq, false_and, if_false]
  refine Prog.keeps_bind hR.nextSeq fun seq => ?_
  refine Prog.keeps_bind ?_ fun _ => Prog.keeps_pure _
  exact Prog.keeps_bind (keeps_emitLifecycle_dryRun hR hmode _) fun _ => Prog.keeps_pure _

omit hR in
theorem keeps_unlessCrossing {side : Side} {price : PyFloat} {proposed : String}
    {place : Lane (SubmitDecision × List LifecycleEvent)} (hplace : Prog.Keeps R place) :
    Prog.Keeps R (unlessCrossing inputs tokenId side price proposed place) := by
  refine Prog.keeps_bind (Prog.keeps_ofExcept _) fun reason => ?_
  cases reason with
  | none => exact hplace
  | some reason => exact Prog.keeps_pure _

theorem keeps_dispatchIntent_dryRun (hmode : inputs.mode = .dryRun) :
    Prog.Keeps R (dispatchIntent inputs gates tokenId quote nowS) := by
  have hctx : (inputs.lifecycleContext quote nowS).mode = .dryRun := hmode
  unfold dispatchIntent
  split_ifs
  · unfold dispatchTake
    split
    · exact Prog.keeps_pure _
    · split
      · refine keeps_unlessCrossing ?_
        unfold emitOrderLifecycle
        split
        · exact Prog.keeps_bind (keeps_emitLifecycle_dryRun hR hctx _) fun _ => Prog.keeps_pure _
        · exact Prog.keeps_throw _
      · exact Prog.keeps_throw _
  · unfold dispatchMaker
    split
    · exact Prog.keeps_pure _
    · refine keeps_unlessCrossing ?_
      unfold emitMaker
      simp only
      split_ifs
      · split
        · split_ifs
          · exact Prog.keeps_pure _
          · exact keeps_emitCancelReplaceLifecycle_dryRun hR hctx _ _
        · exact Prog.keeps_pure _
      · exact Prog.keeps_bind (keeps_emitLifecycle_dryRun hR hctx _) fun _ => Prog.keeps_pure _

theorem keeps_decideAndSubmit_dryRun (hmode : inputs.mode = .dryRun)
    (orderCap : Option AbstainReason) :
    Prog.Keeps R (decideAndSubmit inputs gates orderCap tokenId) := by
  unfold decideAndSubmit
  split
  · exact Prog.keeps_pure _
  · refine Prog.keeps_bind ?_ fun served => ?_
    · refine Prog.keeps_tryCatch
        (Prog.keeps_bind (hR.ask fun _ => rfl) fun _ => Prog.keeps_pure _) fun e => ?_
      split_ifs
      · exact Prog.keeps_pure _
      · exact Prog.keeps_throw _
    cases served with
    | none => exact Prog.keeps_pure _
    | some quote =>
      refine Prog.keeps_bind (hR.ask fun _ => rfl) fun now => ?_
      refine Prog.keeps_bind Prog.keeps_get fun w => ?_
      split
      · exact Prog.keeps_pure _
      · exact keeps_dispatchIntent_dryRun hR hmode

/-- **The loop of a dry run** makes offline calls only. -/
theorem keeps_runTokens_dryRun (hmode : inputs.mode = .dryRun) : ∀ (tokenIds : List String)
    (ordersThisRun : ℕ), Prog.Keeps R (runTokens inputs gates tokenIds ordersThisRun)
  | [], _ => Prog.keeps_pure _
  | _ :: tokenIds, _ => by
    refine Prog.keeps_bind (keeps_decideAndSubmit_dryRun hR hmode _) fun _ => ?_
    exact Prog.keeps_bind (keeps_runTokens_dryRun hmode tokenIds _) fun _ => Prog.keeps_pure _

end OfflineKept

/-- A dry run places no order, whether it returns or raises. -/
theorem runDustExecution_dryRun (hmode : inputs.mode = .dryRun) :
    Prog.Keeps (Calls fun call => call.isSubmit = false) (runDustExecution inputs) := by
  have hstage {α : Type} {m : Lane α} (h : Prog.Keeps Harmless m) :
      Prog.Keeps (Calls fun call => call.isSubmit = false) m := h.mono fun _ _ h => h.1
  unfold runDustExecution
  refine Prog.keeps_bind (Prog.keeps_ofExcept _) fun sessionMeta => ?_
  refine Prog.keeps_bind (Prog.keeps_modify fun w => ⟨[], by simp⟩) fun _ => ?_
  refine Prog.keeps_bind (hstage (harmless_applySafetyTriggers _)) fun risk => ?_
  refine Prog.keeps_bind
    (hstage ((quiet_decideGates _).mono fun _ _ => Quiet.harmless)) fun gates => ?_
  refine Prog.keeps_bind (hstage harmless_openRun) fun snapshot => ?_
  refine Prog.keeps_bind
    (hstage ((keeps_runTokens_dryRun offlineKept_quiet hmode _ _).mono fun _ _ => Quiet.harmless)) fun _ => ?_
  exact Prog.keeps_bind (hstage harmless_closeRun) fun _ => Prog.keeps_pure _

end DryRun

/-! ## The whole run -/

/-- The stage before the loop emits the first event. -/
theorem openRun_numbered {risk : RiskAccumulator} {event : LifecycleEvent} {w w' : World}
    (h : (openRun inputs risk gates).exec w = (.ok event, w')) :
    ∃ snapshot, event = .sessionRiskSnapshot snapshot ∧ Numbered [event] w w' := by
  unfold openRun at h
  rw [Prog.exec_bind_ok (exec_nextSeq w)] at h
  obtain ⟨now, t, hnow, h⟩ := Prog.exec_bind_returned h
  obtain ⟨count, u, hsweep, h⟩ := Prog.exec_bind_returned h
  obtain ⟨_, v, hcancel, h⟩ := Prog.exec_bind_returned h
  obtain ⟨hevent, rfl⟩ := Prod.mk.inj h
  have ht : t.nextSeq = w.nextSeq + 1 := seqKept_ask.of_exec hnow
  have hu : u.nextSeq = t.nextSeq := (seqKept_startupOpenOrderSweep _ _).of_exec hsweep
  have hv : v.nextSeq = u.nextSeq := (seqKept_trigger _ _ _).of_exec hcancel
  refine ⟨_, (Except.ok.inj hevent).symm, ?_, ?_⟩
  · rw [← Except.ok.inj hevent]
    rfl
  · rw [hv, hu, ht]
    rfl

/-- The stage after the loop emits the last event. -/
theorem closeRun_numbered {event : LifecycleEvent} {decision : ShutdownDecision} {w w' : World}
    (h : (closeRun inputs).exec w = (.ok (event, decision), w')) :
    ∃ label, event = .dustRunLabelEvent label ∧ Numbered [event] w w' := by
  unfold closeRun at h
  rw [Prog.exec_bind_ok (exec_nextSeq w)] at h
  obtain ⟨now, t, hnow, h⟩ := Prog.exec_bind_returned h
  obtain ⟨shutdown, u, hshutdown, h⟩ := Prog.exec_bind_returned h
  obtain ⟨hout, rfl⟩ := Prod.mk.inj h
  obtain ⟨rfl, rfl⟩ := Prod.mk.inj (Except.ok.inj hout)
  have ht : t.nextSeq = w.nextSeq + 1 := seqKept_ask.of_exec hnow
  have hu : u.nextSeq = t.nextSeq := (seqKept_applyShutdownDecision _).of_exec hshutdown
  refine ⟨_, rfl, rfl, ?_⟩
  rw [hu, ht]
  rfl

/-- The orders the write port answered. -/
def answeredIn (calls : List Call) : ℕ := calls.countP fun
  | .submitOrder _ (.ok _) => true
  | _ => false

theorem answeredIn_le (calls : List Call) : answeredIn calls ≤ placedIn calls := by
  refine List.countP_mono_left fun call _ hcall => ?_
  split at hcall
  · rfl
  · simp at hcall

/-- The decisions that count as orders. -/
def DustExecutionResult.ordersCounted (result : DustExecutionResult) : ℕ :=
  result.decisions.countP decisionPlaced

/-- **The counts and the stream of a run**, after its own calls `own`. -/
structure CountedRun (inputs : RunInputs) (own : List Call) (result : DustExecutionResult) :
    Prop where
  run_cap : 0 < inputs.envelope.maxOrdersPerRun →
    (result.ordersCounted : ℤ) ≤ inputs.envelope.maxOrdersPerRun
  manifest_cap : 0 < inputs.manifest.maxOrders →
    (result.ordersCounted : ℤ) ≤ inputs.manifest.maxOrders
  session_cap : 0 < inputs.envelope.maxOrdersPerSession →
    inputs.priorSessionOrderCount + result.ordersCounted ≤
      max inputs.priorSessionOrderCount inputs.envelope.maxOrdersPerSession
  day_cap : 0 < inputs.envelope.maxOrdersPerDay →
    inputs.priorDayOrderCount + result.ordersCounted ≤
      max inputs.priorDayOrderCount inputs.envelope.maxOrdersPerDay
  /-- Every order the write port answered is counted. -/
  answered : answeredIn own ≤ result.ordersCounted
  /-- The events are numbered from 1, with no gap and no repeat. -/
  numbered : result.events.map LifecycleEvent.sequenceNo = List.range' 1 result.events.length
  /-- Between the risk snapshot and the label, each decision contributes its stream. -/
  stream : ∃ snapshot streams label, result.events =
      .sessionRiskSnapshot snapshot :: (streams.flatten ++ [.dustRunLabelEvent label]) ∧
    List.Forall₂ TokenStream result.decisions streams

/-- Below every cap, one more order stays within them. -/
theorem orderCap_none {count : ℕ} : inputs.orderCap count = none ↔
    (0 < inputs.envelope.maxOrdersPerRun → (count : ℤ) < inputs.envelope.maxOrdersPerRun) ∧
    (0 < inputs.manifest.maxOrders → (count : ℤ) < inputs.manifest.maxOrders) ∧
    (0 < inputs.envelope.maxOrdersPerSession →
      inputs.priorSessionOrderCount + count < inputs.envelope.maxOrdersPerSession) ∧
    (0 < inputs.envelope.maxOrdersPerDay →
      inputs.priorDayOrderCount + count < inputs.envelope.maxOrdersPerDay) := by
  have hreached (n cap : ℤ) : capReached n cap = false ↔ (0 < cap → n < cap) := by
    simp [capReached]
  rw [← hreached, ← hreached, ← hreached, ← hreached]
  unfold RunInputs.orderCap orderCapBlockReason
  split_ifs with hrun hsession hday
  · simp only [false_iff]
    rintro ⟨hnot, hnot', -⟩
    simp [hnot, hnot'] at hrun
  · simp [hsession]
  · simp [hday]
  · rw [Bool.or_eq_true, not_or, Bool.not_eq_true, Bool.not_eq_true] at hrun
    simp [hrun, hsession, hday]

end Loop

/-- **A run that returns**, in either mode and whatever the venue answers: it keeps its order counts
within the enabled caps, counts every order the write port answered, and emits one numbered stream
in which every counted order has its five events in a row. -/
theorem runDustExecution_stream (inputs : RunInputs) (w w' : World) (result : DustExecutionResult)
    (h : (runDustExecution inputs).exec w = (.ok result, w')) :
    ∃ own, w'.history = w.history ++ own ∧ CountedRun inputs own result := by
  -- the orders that were answered
  have hanswered : ∃ own, w'.history = w.history ++ own ∧
      answeredIn own ≤ result.ordersCounted := by
    cases hmode : inputs.mode with
    | liveGuarded =>
      obtain ⟨own, hown, -, hcounts⟩ := runDustExecution_live hmode h
      obtain ⟨hsubmitted, -, -⟩ := hcounts result rfl
      refine ⟨own, hown, (answeredIn_le own).trans (hsubmitted.symm.trans_le ?_)⟩
      exact List.countP_mono_left fun decision _ hd => by simp [decisionPlaced, hd]
    | dryRun =>
      obtain ⟨own, hown, hnone⟩ := (runDustExecution_dryRun hmode).of_exec h
      have hplaced : placedIn own = 0 :=
        List.countP_eq_zero.mpr fun call hcall => by simp [hnone call hcall]
      have := answeredIn_le own
      exact ⟨own, hown, by omega⟩
  obtain ⟨own, hown, hanswered⟩ := hanswered
  refine ⟨own, hown, ?_⟩
  unfold runDustExecution at h
  obtain ⟨sessionMeta, t, hmeta, h⟩ := Prog.exec_bind_returned h
  rw [startRun, Prog.exec_bind_ok (Prog.exec_modify _)] at h
  obtain ⟨risk, u, htriggers, h⟩ := Prog.exec_bind_returned h
  have hu : u.nextSeq = 1 := (seqKept_applySafetyTriggers _ _).of_exec htriggers
  obtain ⟨gates, v, hdecide, h⟩ := Prog.exec_bind_returned h
  have hv : v.nextSeq = 1 := ((seqKept_decideGates _ _ _).of_exec hdecide).trans hu
  obtain ⟨snapshot, x, hopen, h⟩ := Prog.exec_bind_returned h
  obtain ⟨⟨decisions, tokenEvents⟩, y, hloop, h⟩ := Prog.exec_bind_returned h
  obtain ⟨⟨label, shutdownDecision⟩, z, hclose, h⟩ := Prog.exec_bind_returned h
  obtain ⟨hresult, -⟩ := Prod.mk.inj h
  obtain rfl := Except.ok.inj hresult
  obtain ⟨⟨streams, rfl, hstreams⟩, hnumbered, hcap⟩ :=
    runTokens_counts (decideGates_ok hdecide).1.genuine hloop
  obtain ⟨snapshot, rfl, hx⟩ := openRun_numbered hopen
  obtain ⟨label, rfl, hz⟩ := closeRun_numbered hclose
  have hbelow (hpos : decisions.countP decisionPlaced ≠ 0) :=
    orderCap_none.mp (zero_add (decisions.countP decisionPlaced - 1) ▸ hcap hpos)
  -- the last counted order was below the cap
  have hwithin {prior cap : ℤ} (hlast : decisions.countP decisionPlaced ≠ 0 →
      prior + (decisions.countP decisionPlaced - 1 : ℕ) < cap) :
      prior + (decisions.countP decisionPlaced : ℤ) ≤ max prior cap := by
    by_cases hpos : decisions.countP decisionPlaced = 0
    · simp [hpos]
    · have := hlast hpos
      omega
  refine ⟨fun hcap => ?_, fun hcap => ?_, fun hcap => ?_, fun hcap => ?_, hanswered, ?_, snapshot,
    streams, label, rfl, hstreams⟩
  · have := hwithin fun hpos => (zero_add _).trans_lt ((hbelow hpos).1 hcap)
    rwa [zero_add, max_eq_right hcap.le] at this
  · have := hwithin fun hpos => (zero_add _).trans_lt ((hbelow hpos).2.1 hcap)
    rwa [zero_add, max_eq_right hcap.le] at this
  · exact hwithin fun hpos => (hbelow hpos).2.2.1 hcap
  · exact hwithin fun hpos => (hbelow hpos).2.2.2 hcap
  · have hstream := ((hx.append hnumbered).append hz).1
    rw [hv] at hstream
    simpa using hstream

/-- The armed run returns, with one order counted under the manifest's cap of one. -/
theorem runDustExecution_stream_armed : ∃ result w',
    (runDustExecution (ArmedRun.inputs [] none "token")).exec ArmedRun.start = (.ok result, w') ∧
      result.ordersCounted = 1 ∧ ∃ own, w'.history = ArmedRun.start.history ++ own ∧
        CountedRun (ArmedRun.inputs [] none "token") own result := by
  have hcount : ((runDustExecution (ArmedRun.inputs [] none "token")).exec ArmedRun.start).1.map
      DustExecutionResult.ordersCounted = .ok 1 := by
    decide +kernel
  rcases h : (runDustExecution (ArmedRun.inputs [] none "token")).exec ArmedRun.start with
    ⟨_ | result, w'⟩
  · simp [h, Except.map] at hcount
  · rw [h] at hcount
    exact ⟨result, w', rfl, Except.ok.inj hcount, runDustExecution_stream _ _ _ _ h⟩

end Veridex.DustExecution
