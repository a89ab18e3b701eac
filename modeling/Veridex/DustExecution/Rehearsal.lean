import Veridex.DustExecution.RunStream
import Veridex.DustExecution.SweepRuns
import Veridex.Lib.Coupling

/-!
# A dry run rehearses the live one (`runner.py`)

The two modes walk the same universe under the same gates. A live run asks its interlock store, and
puts its orders on the wire where the dry run signs them offline; neither is a read of the quotes or
the clock, so what they read stays in step (`InStep`) although their histories differ. The two are
run side by side, stage by stage.

A safety trigger sweeps in either mode. It is the one surface a dry run may cancel through.

Results: `runDustExecution_rehearses`.
-/

namespace Veridex.DustExecution

open Veridex.Py Veridex.Policy Veridex.Lib

/-! ## What a rehearsal shares with its run -/

/-- The same arguments in another mode. -/
def RunInputs.inMode (inputs : RunInputs) (mode : ExecutionMode) : RunInputs :=
  { inputs with mode }

/-- Two events of one kind with one envelope. What an order is (its token, side, price and size) is
the same; what became of it may differ. -/
inductive SameEvent : LifecycleEvent → LifecycleEvent → Prop
  | snapshot (event : SessionRiskSnapshot) :
      SameEvent (.sessionRiskSnapshot event) (.sessionRiskSnapshot event)
  | intent (event : OrderSubmitIntent) :
      SameEvent (.orderSubmitIntent event) (.orderSubmitIntent event)
  | attempt {event event' : OrderSubmitAttempt}
      (henvelope : event.toEventEnvelope = event'.toEventEnvelope)
      (hid : event.decisionId = event'.decisionId) :
      SameEvent (.orderSubmitAttempt event) (.orderSubmitAttempt event')
  | ack {event event' : OrderAckEvent}
      (henvelope : event.toEventEnvelope = event'.toEventEnvelope)
      (hid : event.decisionId = event'.decisionId) :
      SameEvent (.orderAckEvent event) (.orderAckEvent event')
  | status {event event' : OrderStatusEvent}
      (henvelope : event.toEventEnvelope = event'.toEventEnvelope)
      (hid : event.decisionId = event'.decisionId) :
      SameEvent (.orderStatusEvent event) (.orderStatusEvent event')
  | reconciliation {event event' : RealFillReconciliation}
      (henvelope : event.toEventEnvelope = event'.toEventEnvelope)
      (hid : event.decisionId = event'.decisionId) :
      SameEvent (.realFillReconciliation event) (.realFillReconciliation event')
  | label (event : DustRunLabelEvent) :
      SameEvent (.dustRunLabelEvent event) (.dustRunLabelEvent event)

/-- A dry decision and the live one it rehearses. -/
structure SameDecision (dry live : SubmitDecision) : Prop where
  token : dry.tokenId = live.tokenId
  /-- What the live run submits is what the dry run would have. -/
  placed : dry.abstainReason = some .modeANoOrders ↔ live.submitted = true
  abstained : live.submitted = false → dry.abstainReason = live.abstainReason
  unsubmitted : dry.submitted = false

/-- The stream and the decisions of a dry run are those of the live one. -/
structure SameResult (dry live : DustExecutionResult) : Prop where
  events : List.Forall₂ SameEvent dry.events live.events
  decisions : List.Forall₂ SameDecision dry.decisions live.decisions

/-! ## Staying in step -/

namespace Call

/-- A read of a quote or of the clock. -/
def isRead : Call → Bool
  | now _ => true
  | readQuote _ _ => true
  | _ => false

/-- A read of the open orders. -/
def isGetOrders : Call → Bool
  | getOrders _ => true
  | _ => false

/-- An order on the wire, or the cancel of a single one. -/
def isWrite : Call → Bool
  | submitOrder _ _ => true
  | cancelSingleOrder _ _ => true
  | _ => false

end Call

/-- The reads among some calls. -/
def readsOf (calls : List Call) : List Call := calls.filter Call.isRead

/-- The quotes and the clock are inputs of the run: what they answer depends on what was read. -/
structure Scripted (seams : Seams) : Prop where
  now : ∀ {history history'}, readsOf history = readsOf history' →
    seams.nowFn history () = seams.nowFn history' ()
  quote : ∀ {history history'} (tokenId : String), readsOf history = readsOf history' →
    seams.readQuote history tokenId = seams.readQuote history' tokenId

/-- Two runs have read the same, stand at the same number and are blocked alike. -/
structure InStep (w w' : World) : Prop where
  seq : w.nextSeq = w'.nextSeq
  reads : readsOf w.history = readsOf w'.history
  blocked : w.session.submitBlocked = w'.session.submitBlocked

namespace InStep

variable {w w' : World}

instance : Std.Refl InStep := ⟨fun _ => ⟨rfl, rfl, rfl⟩⟩

instance : IsTrans World InStep := ⟨fun _ _ _ h h' =>
  ⟨h.seq.trans h'.seq, h.reads.trans h'.reads, h.blocked.trans h'.blocked⟩⟩

theorem symm (h : InStep w w') : InStep w' w := ⟨h.seq.symm, h.reads.symm, h.blocked.symm⟩

/-- Each side goes on by itself, without a read. -/
theorem along {u u' : World} (h : InStep w w') (hu : InStep w u) (hu' : InStep w' u') :
    InStep u u' := IsTrans.trans _ _ _ (IsTrans.trans _ _ _ hu.symm h) hu'

/-- Both sides record the same read. -/
theorem record (h : InStep w w') (call : Call) : InStep (w.record call) (w'.record call) := by
  refine ⟨h.seq, ?_, h.blocked⟩
  have hreads := h.reads
  unfold readsOf at hreads ⊢
  rw [World.record_history, World.record_history, List.filter_append, List.filter_append, hreads]

end InStep

/-- A call that is no read leaves a run in step. -/
theorem inStep_record {w : World} {call : Call} (h : call.isRead = false) :
    InStep w (w.record call) := by
  refine ⟨rfl, ?_, rfl⟩
  unfold readsOf
  rw [World.record_history, List.filter_append]
  simp [h]

section Steps

variable {α β : Type} {lone : Prop}

theorem inStep_ask {surface : Surface α β} {arg : α} {entry : Except PyExc β → Call}
    (h : ∀ answer, (entry answer).isRead = false) : Prog.Keeps InStep (ask surface arg entry) := by
  intro w
  rw [exec_ask]
  exact inStep_record (h _)

theorem inStep_assessUncertainSubmit (adapter : Adapter) (record : PreSubmitRecord) :
    Prog.Keeps InStep (assessUncertainSubmit adapter record) :=
  keeps_assessUncertainSubmit (fun _ => inStep_ask fun _ => rfl) (fun _ _ => inStep_ask fun _ => rfl)
    (fun _ _ => inStep_ask fun _ => rfl) adapter record

theorem inStep_placeOrder (ctx : LifecycleContext) (order : LifecycleOrder) (price : UnitPrice) :
    Prog.Keeps InStep (placeOrder ctx order price) := by
  unfold placeOrder
  cases ctx.mode with
  | dryRun => exact Prog.keeps_bind (inStep_ask fun _ => rfl) fun _ => Prog.keeps_pure _
  | liveGuarded =>
    simp only
    split
    · exact Prog.keeps_throw _
    · split
      · exact Prog.keeps_bind (inStep_ask fun _ => rfl) fun _ => Prog.keeps_pure _
      · exact Prog.keeps_throw _

/-- Both sides take the same number. -/
theorem couples_nextSeq : Prog.Couples lone InStep nextSeq nextSeq
    fun seq seq' w w' => seq' = seq ∧ InStep w w' := by
  refine Prog.couples_of_exec fun w w' h => ⟨_, _, _, _, exec_nextSeq w, exec_nextSeq w', ?_⟩
  exact ⟨h.seq.symm, by rw [h.seq], h.reads, h.blocked⟩

/-- Both sides read the same clock. -/
theorem couples_nowS {seams : Seams} (hscript : Scripted seams) :
    Prog.Couples lone InStep (nowS seams) (nowS seams)
      fun now now' w w' => now' = now ∧ InStep w w' := by
  intro w w' h
  unfold nowS
  rw [exec_ask, exec_ask, hscript.now h.reads]
  cases seams.nowFn w'.history () with
  | error e => trivial
  | ok now => exact ⟨rfl, h.record _⟩

/-- Both sides read the same quote. -/
theorem couples_readQuote {seams : Seams} (hscript : Scripted seams) (tokenId : String) :
    Prog.Couples lone InStep (readQuote seams tokenId) (readQuote seams tokenId)
      fun served served' w w' => served' = served ∧ InStep w w' := by
  intro w w' h
  unfold readQuote
  rw [Prog.exec_tryCatch, Prog.exec_tryCatch, Prog.exec_bind, Prog.exec_bind, exec_ask, exec_ask,
    hscript.quote tokenId h.reads]
  cases seams.readQuote w'.history tokenId with
  | ok quote => exact ⟨rfl, h.record _⟩
  | error e =>
    simp only
    split_ifs
    · exact ⟨rfl, h.record _⟩
    · trivial

end Steps

/-! ## One order -/

/-- The signer, the write port and the reconciliation of an armed bundle answer every call, the port
with a mapping. -/
structure VenueAnswers (seams : Seams) (arming : Option ModeBArming) : Prop where
  signs : ∀ history payload, ∃ orderDigest,
    seams.signer.signOrder history payload = .ok orderDigest
  submits : ∃ bundle writePort auth, arming = some bundle ∧ bundle.writePort = some writePort ∧
    bundle.orderAuth = some auth ∧
    ∀ history order, ∃ record items, writePort history order = .ok ⟨record, .dict items⟩
  reconciles : ∀ record, Prog.Returns (assessUncertainSubmit seams.adapter record)

/-- The lifecycle's context in another mode. -/
def LifecycleContext.inMode (ctx : LifecycleContext) (mode : ExecutionMode) : LifecycleContext :=
  { ctx with mode }

/-- What one token returns in the two modes. -/
def SameOut (dry live : SubmitDecision × List LifecycleEvent) (w w' : World) : Prop :=
  SameDecision dry.1 live.1 ∧ List.Forall₂ SameEvent dry.2 live.2 ∧ InStep w w'

theorem sameDecision_abstain (tokenId : String) {reason : AbstainReason}
    (hreason : reason ≠ .modeANoOrders) :
    SameDecision (abstain tokenId reason) (abstain tokenId reason) :=
  ⟨rfl, by simp [abstain, hreason], fun _ => rfl, rfl⟩

section OneOrder

variable {ctx : LifecycleContext} {order : LifecycleOrder} {lone : Prop}

/-- The order is signed on one side and sent on the other. -/
theorem couples_placeOrder (hvenue : VenueAnswers ctx.seams ctx.arming) (price : UnitPrice) :
    Prog.Couples lone InStep (placeOrder (ctx.inMode .dryRun) order price)
      (placeOrder (ctx.inMode .liveGuarded) order price)
      fun signed sent w w' => signed.2 = none ∧ (∃ items, sent.2 = some (.dict items)) ∧
        InStep w w' := by
  obtain ⟨bundle, writePort, auth, hbundle, hport, hauth, hsubmits⟩ := hvenue.submits
  have hdry (w : World) : ∃ record u,
      (placeOrder (ctx.inMode .dryRun) order price).exec w = (.ok (record, none), u) := by
    let payload : SigningPayload := ⟨order.tokenId, order.side, price, order.size, order.tif,
      ctx.tickSize, order.clientOrderId⟩
    obtain ⟨orderDigest, hdigest⟩ := hvenue.signs w.history payload
    have hask : (ask ctx.seams.signer.signOrder payload (.signOrder payload)).exec w =
        (.ok orderDigest, w.record (.signOrder payload (.ok orderDigest))) := by
      rw [exec_ask, hdigest]
    exact ⟨_, _, Prog.exec_bind_ok hask⟩
  have hlive (w : World) : ∃ record items u,
      (placeOrder (ctx.inMode .liveGuarded) order price).exec w =
        (.ok (record, some (.dict items)), u) := by
    let wire := order.wire ctx.tickSize bundle auth
    obtain ⟨record, items, hanswer⟩ := hsubmits w.history wire
    have hask : (ask writePort wire (.submitOrder wire)).exec w =
        (.ok ⟨record, .dict items⟩, w.record (.submitOrder wire (.ok ⟨record, .dict items⟩))) := by
      rw [exec_ask, hanswer]
    refine ⟨record, items, w.record (.submitOrder wire (.ok ⟨record, .dict items⟩)), ?_⟩
    unfold placeOrder
    simp only [LifecycleContext.inMode, hbundle, hport, hauth]
    exact Prog.exec_bind_ok hask
  refine Prog.couples_of_exec fun w w' h => ?_
  obtain ⟨record, u, hu⟩ := hdry w
  obtain ⟨record', items, u', hu'⟩ := hlive w'
  exact ⟨_, u, _, u', hu, hu', rfl, ⟨items, rfl⟩,
    h.along ((inStep_placeOrder _ _ _).of_exec hu) ((inStep_placeOrder _ _ _).of_exec hu')⟩

/-- An acknowledgement is read off any mapping. -/
theorem ackFields_dict (textOf : Value → String) (items : List (String × Value)) :
    ∃ ack, ackFields textOf (some (.dict items)) = .ok ack := ⟨_, rfl⟩

/-- **The lifecycle of an order**, signed or sent: its five events agree. -/
theorem couples_emitLifecycle (hvenue : VenueAnswers ctx.seams ctx.arming) :
    Prog.Couples lone InStep (emitLifecycle (ctx.inMode .dryRun) order)
      (emitLifecycle (ctx.inMode .liveGuarded) order)
      fun dry live => SameOut (dry.1, dry.2.events) (live.1, live.2.events) := by
  have hreconcile (record record' : PreSubmitRecord) : Prog.Couples lone InStep
      (reconcileAfterSubmit ctx.seams.adapter record)
      (reconcileAfterSubmit ctx.seams.adapter record') fun _ _ => InStep := by
    have hreturns (record : PreSubmitRecord) :
        Prog.Returns (reconcileAfterSubmit ctx.seams.adapter record) :=
      Prog.returns_bind (hvenue.reconciles record) fun _ => Prog.returns_pure _
    have hkeeps (record : PreSubmitRecord) :
        Prog.Keeps InStep (reconcileAfterSubmit ctx.seams.adapter record) :=
      Prog.keeps_bind (inStep_assessUncertainSubmit _ record) fun _ => Prog.keeps_pure _
    exact Prog.couples_of_returns (hreturns record) (hreturns record') (hkeeps record)
      (hkeeps record') fun _ _ _ _ h hu hu' => h.along hu hu'
  refine Prog.couples_bind couples_nextSeq fun intentSeq intentSeq' => ?_
  rintro w w' ⟨rfl, h⟩
  refine Prog.couples_bind (Prog.couples_ofExcept _) (fun price price' => ?_) w w' h
  rintro w w' ⟨-, rfl, h⟩
  refine Prog.couples_bind (couples_placeOrder hvenue _) (fun signed sent => ?_) w w' h
  obtain ⟨presubmit, response⟩ := signed
  obtain ⟨presubmit', response'⟩ := sent
  rintro w w' ⟨rfl, ⟨items, rfl⟩, h⟩
  refine Prog.couples_bind couples_nextSeq (fun attemptSeq attemptSeq' => ?_) w w' h
  rintro w w' ⟨rfl, h⟩
  obtain ⟨⟨venueOrderId, ackStatus⟩, hack⟩ := ackFields_dict ctx.seams.adapter.textOf items
  have hacks : Prog.Couples lone InStep
      (Prog.ofExcept (ackFields ctx.seams.adapter.textOf none) : Lane _)
      (Prog.ofExcept (ackFields ctx.seams.adapter.textOf (some (.dict items))) : Lane _)
      fun _ _ => InStep := by
    rw [hack]
    exact Prog.couples_pure fun _ _ h => h
  refine Prog.couples_bind hacks (fun _ _ => ?_) w w' h
  refine Prog.couples_bind couples_nextSeq fun ackSeq ackSeq' => ?_
  rintro w w' ⟨rfl, h⟩
  refine Prog.couples_bind (hreconcile _ _) (fun _ _ => ?_) w w' h
  refine Prog.couples_bind couples_nextSeq fun statusSeq statusSeq' => ?_
  rintro w w' ⟨rfl, h⟩
  refine Prog.couples_bind couples_nextSeq (fun reconciliationSeq reconciliationSeq' => ?_) w w' h
  rintro w w' ⟨rfl, h⟩
  refine ⟨⟨rfl, by simp [lifecycleDecision], by simp [lifecycleDecision], rfl⟩, ?_, h⟩
  exact .cons (.intent _) (.cons (.attempt rfl rfl) (.cons (.ack rfl rfl)
    (.cons (.status rfl rfl) (.cons (.reconciliation rfl rfl) .nil))))

end OneOrder

/-! ## The token loop -/

section Loop

variable {inputs : RunInputs} {gates : RunGates} {tokenId : String} {lone : Prop}

/-- The two sides abstain for the same reason. -/
theorem couples_abstain {reason : AbstainReason} (hreason : reason ≠ .modeANoOrders) :
    Prog.Couples lone InStep (pure (abstain tokenId reason, []) : Lane _)
      (pure (abstain tokenId reason, []) : Lane _) SameOut :=
  Prog.couples_pure fun _ _ h => ⟨sameDecision_abstain tokenId hreason, .nil, h⟩

/-- The non-crossing gate sees one order in both modes. -/
theorem couples_unlessCrossing {side : Side} {price : PyFloat} {proposed : String}
    {place place' : Lane (SubmitDecision × List LifecycleEvent)}
    (hplace : Prog.Couples lone InStep place place' SameOut) :
    Prog.Couples lone InStep (unlessCrossing (inputs.inMode .dryRun) tokenId side price proposed place)
      (unlessCrossing (inputs.inMode .liveGuarded) tokenId side price proposed place') SameOut := by
  refine Prog.couples_bind (Prog.couples_ofExcept _) fun crossing crossing' => ?_
  rintro w w' ⟨hcrossing, rfl, h⟩
  cases crossing' with
  | none => exact hplace w w' h
  | some reason =>
    obtain rfl := nonCrossingGate_some hcrossing
    exact couples_abstain (by simp) w w' h

/-- **The admitted intent**, in the two modes. -/
theorem couples_dispatchIntent (hvenue : VenueAnswers inputs.seams inputs.arming)
    (hintent : gates.intent ≠ .cancelReplace) (quote : DustQuote) (nowS : ℤ) :
    Prog.Couples lone InStep (dispatchIntent (inputs.inMode .dryRun) gates tokenId quote nowS)
      (dispatchIntent (inputs.inMode .liveGuarded) gates tokenId quote nowS) SameOut := by
  have hlife (order : LifecycleOrder) : Prog.Couples lone InStep
      (do
        let out ← emitLifecycle ((inputs.lifecycleContext quote nowS).inMode .dryRun) order
        return (out.1, out.2.events) : Lane _)
      (do
        let out ← emitLifecycle ((inputs.lifecycleContext quote nowS).inMode .liveGuarded) order
        return (out.1, out.2.events) : Lane _) SameOut :=
    Prog.couples_bind (couples_emitLifecycle hvenue) fun _ _ => Prog.couples_pure fun _ _ h => h
  unfold dispatchIntent
  by_cases htake : gates.intent = .take
  · rw [if_pos htake, if_pos htake]
    unfold dispatchTake
    cases resolveTakerSideTif gates.intentParams with
    | none => exact couples_abstain (by simp)
    | some taker =>
      cases hbid : quote.bid with
      | none => exact Prog.couples_throw _ _
      | some bid =>
        cases hask : quote.ask with
        | none => exact Prog.couples_throw _ _
        | some ask =>
          refine couples_unlessCrossing ?_
          unfold emitOrderLifecycle
          simp only [hbid, hask]
          exact hlife _
  · rw [if_neg htake, if_neg htake]
    unfold dispatchMaker
    have hbuild (mode : ExecutionMode) : buildRestingOrder tokenId (inputs.inMode mode).manifest
        gates.intentParams gates.wireSize (inputs.inMode mode).tickSize =
        buildRestingOrder tokenId inputs.manifest gates.intentParams gates.wireSize
          inputs.tickSize := rfl
    rw [hbuild, hbuild]
    cases buildRestingOrder tokenId inputs.manifest gates.intentParams gates.wireSize
      inputs.tickSize with
    | none => exact couples_abstain (by simp)
    | some resting =>
      refine couples_unlessCrossing ?_
      unfold emitMaker
      rw [if_neg hintent, if_neg hintent]
      exact hlife _

/-- **One token**, in the two modes. -/
theorem couples_decideAndSubmit (hscript : Scripted inputs.seams)
    (hvenue : VenueAnswers inputs.seams inputs.arming) (hgates : gates.Genuine)
    (harmed : gates.armingBlockReason = none) (hintent : gates.intent ≠ .cancelReplace)
    {orderCap : Option AbstainReason} (hcap : orderCap ≠ some .modeANoOrders) :
    Prog.Couples lone InStep (decideAndSubmit (inputs.inMode .dryRun) gates orderCap tokenId)
      (decideAndSubmit (inputs.inMode .liveGuarded) gates orderCap tokenId) SameOut := by
  have hpre : preQuoteBlockReason (inputs.inMode .liveGuarded) gates tokenId =
      preQuoteBlockReason (inputs.inMode .dryRun) gates tokenId := by
    unfold preQuoteBlockReason RunInputs.inMode
    simp [harmed]
  unfold decideAndSubmit
  rw [hpre]
  cases hblock : preQuoteBlockReason (inputs.inMode .dryRun) gates tokenId with
  | some reason =>
    refine couples_abstain ?_
    rintro rfl
    exact preQuoteBlockReason_ne hgates hblock
  | none =>
    refine Prog.couples_bind (couples_readQuote hscript tokenId) fun served served' => ?_
    rintro w w' ⟨rfl, h⟩
    cases served' with
    | none => exact couples_abstain (by simp) w w' h
    | some quote =>
      refine Prog.couples_bind (couples_nowS hscript) (fun now now' => ?_) w w' h
      rintro w w' ⟨rfl, h⟩
      refine Prog.couples_bind Prog.couples_get (fun s s' => ?_) w w' h
      rintro w w' ⟨rfl, rfl, h⟩
      have hsubmit : submitBlockReason (inputs.inMode .liveGuarded) gates orderCap quote now'
          s'.session = submitBlockReason (inputs.inMode .dryRun) gates orderCap quote now'
            s.session := by
        unfold submitBlockReason checkCanSubmit
        rw [h.blocked]
        rfl
      simp only [hsubmit]
      cases hblock : submitBlockReason (inputs.inMode .dryRun) gates orderCap quote now'
          s.session with
      | some reason =>
        refine couples_abstain ?_ s s' h
        rintro rfl
        exact submitBlockReason_ne hgates hcap hblock
      | none => exact couples_dispatchIntent hvenue hintent quote now' s s' h

/-- What the loop returns in the two modes. -/
def SameOuts (dry live : List SubmitDecision × List LifecycleEvent) (w w' : World) : Prop :=
  List.Forall₂ SameDecision dry.1 live.1 ∧ List.Forall₂ SameEvent dry.2 live.2 ∧ InStep w w'

/-- A dry decision is counted as the live one is. -/
theorem SameDecision.placed_eq {dry live : SubmitDecision} (h : SameDecision dry live) :
    decisionPlaced live = decisionPlaced dry := by
  unfold decisionPlaced
  by_cases hlive : live.submitted = true
  · rw [hlive, h.placed.mpr hlive]
    simp
  · have hreason := h.abstained (by simpa using hlive)
    have hdry : ¬ dry.abstainReason = some .modeANoOrders := mt h.placed.mp hlive
    rw [h.unsubmitted, ← hreason]
    simp [hlive, hdry]

/-- **The loop**, in the two modes: the counts stay the same, so the caps do. -/
theorem couples_runTokens (hscript : Scripted inputs.seams)
    (hvenue : VenueAnswers inputs.seams inputs.arming) (hgates : gates.Genuine)
    (harmed : gates.armingBlockReason = none) (hintent : gates.intent ≠ .cancelReplace) :
    ∀ (tokenIds : List String) (ordersThisRun : ℕ),
      Prog.Couples lone InStep (runTokens (inputs.inMode .dryRun) gates tokenIds ordersThisRun)
        (runTokens (inputs.inMode .liveGuarded) gates tokenIds ordersThisRun) SameOuts := by
  intro tokenIds
  induction tokenIds with
  | nil =>
    intro ordersThisRun
    exact Prog.couples_pure fun _ _ h => ⟨.nil, .nil, h⟩
  | cons tokenId tokenIds ih =>
    intro ordersThisRun
    refine Prog.couples_bind (couples_decideAndSubmit hscript hvenue hgates harmed hintent
      (orderCap_ne _)) fun dry live => ?_
    obtain ⟨decision, tokenEvents⟩ := dry
    obtain ⟨decision', tokenEvents'⟩ := live
    rintro w w' ⟨hdecision, hevents, h⟩
    simp only [hdecision.placed_eq]
    refine Prog.couples_bind (ih _) (fun rest rest' => ?_) w w' h
    rintro w w' ⟨hdecisions, hevents', h⟩
    exact ⟨.cons hdecision hdecisions, List.rel_append hevents hevents', h⟩

end Loop

/-! ## The safety triggers -/

/-- Two runs with one history: nothing told them apart yet. -/
structure Alike (w w' : World) : Prop where
  seq : w.nextSeq = w'.nextSeq
  history : w.history = w'.history
  blocked : w.session.submitBlocked = w'.session.submitBlocked

theorem Alike.inStep {w w' : World} (h : Alike w w') : InStep w w' :=
  ⟨h.seq, congrArg readsOf h.history, h.blocked⟩

/-- The two accumulators show the same losses. -/
structure SameLosses (risk risk' : RiskAccumulator) : Prop where
  session : risk'.realizedLossSession = risk.realizedLossSession
  day : risk'.realizedLossDay = risk.realizedLossDay

section Triggers

variable {seams : Seams} {inputs : RunInputs} {lone : Prop}

/-- **The sweep** is made on both sides or on neither. -/
theorem couples_cancelAllAndBlock (cause : CancelAllCause) (sweep : Surface Unit ℤ) :
    Prog.Couples lone Alike (cancelAllAndBlock seams cause sweep)
      (cancelAllAndBlock seams cause sweep) fun _ _ => Alike := by
  intro w w' h
  unfold cancelAllAndBlock
  rw [Prog.exec_bind_ok Prog.exec_get, Prog.exec_bind_ok Prog.exec_get]
  rcases cancelAllAndBlockEnter_cases (seams.clockMs w.history) cause w.session with
    ⟨ack, session, hentry, hb, hb', -⟩ | ⟨session, hentry, hb, hb', -⟩
  · rcases cancelAllAndBlockEnter_cases (seams.clockMs w'.history) cause w'.session with
      ⟨ack', session', hentry', -, hc', -⟩ | ⟨session', -, hc, -⟩
    · rw [hentry, hentry']
      exact ⟨h.seq, h.history, hb'.trans hc'.symm⟩
    · rw [h.blocked, hc] at hb
      simp at hb
  · rcases cancelAllAndBlockEnter_cases (seams.clockMs w'.history) cause w'.session with
      ⟨-, -, -, hc, -⟩ | ⟨session', hentry', -, hc', -⟩
    · rw [h.blocked, hc] at hb
      simp at hb
    · rw [hentry, hentry']
      refine Prog.couples_bind (Q := fun _ _ => Alike) ?_ (fun _ _ => ?_) w w' h
      · exact Prog.couples_modify fun s t hst => ⟨hst.seq, hst.history, hb'.trans hc'.symm⟩
      refine Prog.couples_bind (Q := fun _ _ => Alike) ?_ fun count count' => ?_
      · intro s t hst
        rw [exec_ask, exec_ask, hst.history]
        cases sweep t.history () with
        | error e => trivial
        | ok count => exact ⟨hst.seq, congrArg (· ++ _) hst.history, hst.blocked⟩
      refine Prog.couples_bind Prog.couples_get fun s s' => ?_
      rintro s t ⟨rfl, rfl, hst⟩
      exact ⟨hst.seq, hst.history, hst.blocked⟩

theorem couples_requireCancelAllAdapter (adapter : Adapter) :
    Prog.Couples lone Alike (requireCancelAllAdapter adapter) (requireCancelAllAdapter adapter)
      fun sweep sweep' w w' => sweep' = sweep ∧ Alike w w' := by
  unfold requireCancelAllAdapter
  cases adapter.cancelAllOrders with
  | none => exact Prog.couples_throw _ _
  | some sweep => exact Prog.couples_pure fun _ _ h => ⟨rfl, h⟩

theorem couples_trigger (fires : Bool) (cause : CancelAllCause) :
    Prog.Couples lone Alike (trigger seams fires cause) (trigger seams fires cause)
      fun _ _ => Alike := by
  unfold trigger
  cases fires with
  | false => exact Prog.couples_pure fun _ _ h => h
  | true =>
    refine Prog.couples_bind (couples_requireCancelAllAdapter _) fun sweep sweep' => ?_
    rintro w w' ⟨rfl, h⟩
    exact Prog.couples_bind (couples_cancelAllAndBlock cause _)
      (fun _ _ => Prog.couples_pure fun _ _ h => h) w w' h

/-- The fills fold to one accumulator on both sides. -/
theorem couples_foldRealizedFills (envelope : PolicyEnvelope) :
    ∀ (fills : List RealizedFillRecord) (risk : RiskAccumulator), Prog.Couples lone Alike
      (foldRealizedFills seams envelope fills risk) (foldRealizedFills seams envelope fills risk)
      fun risk risk' w w' => risk' = risk ∧ Alike w w' := by
  intro fills
  induction fills with
  | nil =>
    intro risk
    exact Prog.couples_pure fun _ _ h => ⟨rfl, h⟩
  | cons fill fills ih =>
    intro risk
    have hfill (sweep : Surface Unit ℤ) : Prog.Couples lone Alike
        (onRealizedFill seams envelope sweep fill risk)
        (onRealizedFill seams envelope sweep fill risk)
        fun risk risk' w w' => risk' = risk ∧ Alike w w' := by
      rw [onRealizedFill_eq]
      refine Prog.couples_bind (Prog.couples_ofExcept _) fun folded folded' => ?_
      rintro w w' ⟨-, rfl, h⟩
      split_ifs
      · exact Prog.couples_bind (couples_cancelAllAndBlock _ _)
          (fun _ _ => Prog.couples_pure fun _ _ h => ⟨rfl, h⟩) w w' h
      · exact ⟨rfl, h⟩
    refine Prog.couples_bind (couples_requireCancelAllAdapter _) fun sweep sweep' => ?_
    rintro w w' ⟨rfl, h⟩
    refine Prog.couples_bind (hfill _) (fun folded folded' => ?_) w w' h
    rintro w w' ⟨rfl, h⟩
    exact ih _ w w' h

/-- The session the fills are for is the same in both modes, or there are none. -/
def RunInputs.SharesRisk (inputs : RunInputs) : Prop :=
  inputs.realizedFills = [] ∨
    (inputs.inMode .dryRun).startRisk = (inputs.inMode .liveGuarded).startRisk

theorem sameLosses_startRisk (inputs : RunInputs) :
    SameLosses (inputs.inMode .dryRun).startRisk (inputs.inMode .liveGuarded).startRisk := by
  unfold RunInputs.startRisk RunInputs.inMode
  cases inputs.risk with
  | none => exact ⟨rfl, rfl⟩
  | some risk => exact ⟨rfl, rfl⟩

/-- **The safety triggers** fire alike in the two modes. -/
theorem couples_applySafetyTriggers (hshared : inputs.SharesRisk) :
    Prog.Couples lone Alike
      (applySafetyTriggers (inputs.inMode .dryRun) (inputs.inMode .dryRun).startRisk)
      (applySafetyTriggers (inputs.inMode .liveGuarded) (inputs.inMode .liveGuarded).startRisk)
      fun risk risk' w w' => SameLosses risk risk' ∧ Alike w w' := by
  have hfold : Prog.Couples lone Alike
      (foldRealizedFills inputs.seams inputs.envelope inputs.realizedFills
        (inputs.inMode .dryRun).startRisk)
      (foldRealizedFills inputs.seams inputs.envelope inputs.realizedFills
        (inputs.inMode .liveGuarded).startRisk)
      fun risk risk' w w' => SameLosses risk risk' ∧ Alike w w' := by
    rcases hshared with hnone | hsame
    · rw [hnone]
      exact Prog.couples_pure fun _ _ h => ⟨sameLosses_startRisk inputs, h⟩
    · rw [hsame]
      refine (couples_foldRealizedFills _ _ _).mono (fun _ _ h => h) ?_
      rintro risk _ w w' ⟨rfl, h⟩
      exact ⟨⟨rfl, rfl⟩, h⟩
  refine Prog.couples_bind hfold fun risk risk' => ?_
  rintro w w' ⟨hlosses, h⟩
  refine Prog.couples_bind (couples_trigger _ _) (fun _ _ => ?_) w w' h
  exact Prog.couples_bind (couples_trigger _ _) fun _ _ => Prog.couples_pure fun _ _ h =>
    ⟨hlosses, h⟩

end Triggers

/-! ## The session-level gates and the opening -/

/-- What the two runs are given: quotes and a clock that are inputs, a bundle that arms, an empty
book at the start, a venue that answers, and an intent that places an order. -/
structure Rehearsable (inputs : RunInputs) (w : World) : Prop where
  scripted : Scripted inputs.seams
  arms : ∀ u, ∃ u', (modeBArmingBlockReason inputs.digests inputs.arming inputs.manifest
    inputs.envelope inputs.seams.signer (inputs.inMode .liveGuarded).startSession.sessionId
    inputs.operatorInterlockStore).exec u = (.ok none, u')
  /-- The first read of the open orders answers an empty list. -/
  flat : ∃ getOrders, inputs.seams.adapter.getOrders = some getOrders ∧ ∀ calls : List Call,
    (∀ call ∈ calls, call.isGetOrders = false) → getOrders (w.history ++ calls) () = .ok (.list [])
  signs : ∀ history payload, ∃ orderDigest,
    inputs.seams.signer.signOrder history payload = .ok orderDigest
  submits : ∀ bundle ∈ inputs.arming, ∀ writePort ∈ bundle.writePort, ∀ history order,
    ∃ record items, writePort history order = .ok ⟨record, .dict items⟩
  reconciles : ∀ record, Prog.Returns (assessUncertainSubmit inputs.seams.adapter record)
  intent : ∀ request ∈ inputs.request,
    request.intentKind = .take ∨ request.intentKind = .makeQuote

/-- The open orders were not read since. -/
abbrev Unread : World → World → Prop := Calls fun call => call.isGetOrders = false

/-- The two runs are in step, and neither has read the open orders since it started. -/
def StartsInStep (start start' w w' : World) : Prop :=
  (Unread start w ∧ Unread start' w') ∧ InStep w w'

section Opening

variable {inputs : RunInputs} {gates : RunGates} {risk risk' : RiskAccumulator} {lone : Prop}
  {w start start' : World}

theorem Rehearsable.venueAnswers (h : Rehearsable inputs w) :
    VenueAnswers inputs.seams inputs.arming := by
  obtain ⟨u, harms⟩ := h.arms w
  obtain ⟨bundle, proof, hbundle, harmed, -⟩ := modeBArmingBlockReason_none harms
  obtain ⟨writePort, hport⟩ := Option.isSome_iff_exists.mp harmed.writePort
  obtain ⟨auth, hauth⟩ := Option.isSome_iff_exists.mp harmed.orderAuth
  exact ⟨h.signs, ⟨bundle, writePort, auth, hbundle, hport, hauth,
    h.submits bundle hbundle writePort hport⟩, h.reconciles⟩

/-- The intent of the run places one order, or none. -/
theorem Rehearsable.effectiveIntent_ne (h : Rehearsable inputs w) :
    (effectiveIntent inputs.request).1 ≠ .cancelReplace := by
  cases hrequest : inputs.request with
  | none => simp [effectiveIntent]
  | some request =>
    rcases h.intent request hrequest with hkind | hkind
    · simp [effectiveIntent, hkind]
    · simp [effectiveIntent, hkind]

theorem Rehearsable.intentBlockReason_ne (h : Rehearsable inputs w) :
    intentBlockReason inputs.request inputs.manifest ≠ some .intentCancelAll := by
  unfold intentBlockReason
  cases hrequest : inputs.request with
  | none => simp
  | some request =>
    rcases h.intent request hrequest with hkind | hkind
    · simp only [hkind, reduceCtorEq, if_false]
      split_ifs <;> simp
    · simp only [hkind, reduceCtorEq, if_false]
      split_ifs <;> simp

/-- The gates of a run are decided alike: the bundle arms. -/
structure SameGates (inputs : RunInputs) (gates gates' : RunGates) : Prop where
  same : gates' = gates
  armed : gates.armingBlockReason = none
  genuine : gates.Genuine
  intent : gates.intent = (effectiveIntent inputs.request).1
  blocked : gates.intentBlockReason = intentBlockReason inputs.request inputs.manifest

/-- **The gates**, decided in the two modes. -/
theorem couples_decideGates (h : Rehearsable inputs w) (hlosses : SameLosses risk risk')
    {sessionId sessionId' : String} : Prog.Couples lone InStep
      (decideGates (inputs.inMode .dryRun) risk
        (buildAdmission (inputs.inMode .dryRun) risk sessionId))
      (decideGates (inputs.inMode .liveGuarded) risk'
        (buildAdmission (inputs.inMode .liveGuarded) risk' sessionId'))
      fun gates gates' w w' => SameGates inputs gates gates' ∧ InStep w w' := by
  have harming : Prog.Couples lone InStep
      (armingBlockReason (inputs.inMode .dryRun) (inputs.inMode .dryRun).startSession.sessionId)
      (armingBlockReason (inputs.inMode .liveGuarded)
        (inputs.inMode .liveGuarded).startSession.sessionId)
      fun arming arming' w w' => (arming = none ∧ arming' = none) ∧ InStep w w' := by
    refine Prog.couples_of_exec fun u u' hu => ?_
    obtain ⟨v, harms⟩ := h.arms u'
    obtain ⟨_, _, -, -, rfl⟩ := modeBArmingBlockReason_none harms
    exact ⟨none, u, none, _, rfl, harms, ⟨rfl, rfl⟩,
      hu.along (Std.Refl.refl u) (inStep_record rfl)⟩
  have hverdict : (buildAdmission (inputs.inMode .liveGuarded) risk' sessionId').verdict =
      (buildAdmission (inputs.inMode .dryRun) risk sessionId).verdict := by
    unfold buildAdmission StrategyAuthorizationDecision.evaluate
      StrategyAuthorizationDecision.denials
    simp only [hlosses.session, hlosses.day]
    rfl
  have hauthorized : authorizationBlockReason (inputs.inMode .liveGuarded)
      (buildAdmission (inputs.inMode .liveGuarded) risk' sessionId') =
      authorizationBlockReason (inputs.inMode .dryRun)
        (buildAdmission (inputs.inMode .dryRun) risk sessionId) := by
    unfold authorizationBlockReason
    rw [hverdict]
    rfl
  have hcap : lossCapBlockReason risk' inputs.envelope inputs.manifest =
      lossCapBlockReason risk inputs.envelope inputs.manifest := by
    unfold lossCapBlockReason
    rw [hlosses.session, hlosses.day]
  have hgates : Prog.Couples lone InStep
      (decideGates (inputs.inMode .dryRun) risk
        (buildAdmission (inputs.inMode .dryRun) risk sessionId))
      (decideGates (inputs.inMode .liveGuarded) risk'
        (buildAdmission (inputs.inMode .liveGuarded) risk' sessionId'))
      fun gates gates' w w' => (gates' = gates ∧ gates.armingBlockReason = none) ∧
        InStep w w' := by
    refine Prog.couples_bind harming fun arming arming' => ?_
    rintro u u' ⟨⟨rfl, rfl⟩, hu⟩
    refine Prog.couples_bind (Prog.couples_ofExcept _) (fun wireSize wireSize' => ?_) u u' hu
    rintro u u' ⟨-, rfl, hu⟩
    refine ⟨⟨?_, rfl⟩, hu⟩
    simp only [hauthorized]
    congr 1
  refine (hgates.and_ok fun u gates u' hexec => (decideGates_ok hexec).1).mono (fun _ _ h => h) ?_
  rintro gates gates' u u' ⟨hdecided, ⟨hsame, harmed⟩, hu⟩
  exact ⟨⟨hsame, harmed, hdecided.genuine, (congrArg Prod.fst hdecided.effective).symm,
    hdecided.intent⟩, hu⟩

/-- An empty book is read, and nothing is swept. -/
theorem startupOpenOrderSweep_flat {seams : Seams} {getOrders : Surface Unit Value}
    (hsurface : seams.adapter.getOrders = some getOrders)
    (hflat : getOrders w.history () = .ok (.list [])) (enforce : Bool) :
    (startupOpenOrderSweep seams enforce).exec w =
      (.ok 0, w.record (.getOrders (.ok (.list [])))) := by
  have hread : (readStartupOpenOrders seams.adapter).exec w =
      (.ok (some []), w.record (.getOrders (.ok (.list [])))) := by
    have hsurf : (readSurface seams.adapter.getOrders () .getOrders).exec w =
        (.ok (some (.list [])), w.record (.getOrders (.ok (.list [])))) := by
      rw [exec_readSurface, hsurface]
      simp only [Option.map_some, hflat]
      rfl
    unfold readStartupOpenOrders
    rw [Prog.exec_bind_ok hsurf]
    rfl
  unfold startupOpenOrderSweep
  rw [Prog.exec_bind_ok hread]
  simp only [List.length_nil, lt_irrefl, decide_false, Bool.and_false]
  rfl

/-- **The opening** of the two runs reads one clock and an empty book, and emits one snapshot. -/
theorem couples_openRun (h : Rehearsable inputs w) (hstart : start.history = w.history)
    (hstart' : start'.history = w.history) (hlosses : SameLosses risk risk') {gates' : RunGates}
    (hgates : SameGates inputs gates gates') :
    Prog.Couples lone (StartsInStep start start') (openRun (inputs.inMode .dryRun) risk gates)
      (openRun (inputs.inMode .liveGuarded) risk' gates')
      fun event event' w w' => SameEvent event event' ∧ InStep w w' := by
  obtain ⟨getOrders, hsurface, hflat⟩ := h.flat
  obtain rfl := hgates.same
  have hread {u v : World} (hu : u.history = w.history) (hv : Unread u v) :
      getOrders v.history () = .ok (.list []) := by
    obtain ⟨calls, hcalls, hunread⟩ := hv
    rw [hcalls, hu]
    exact hflat calls hunread
  have hseq : Prog.Keeps Unread nextSeq := calls_nextSeq
  have hnow : Prog.Keeps Unread (nowS inputs.seams) := calls_ask fun _ => rfl
  refine Prog.couples_bind (couples_nextSeq.frame hseq hseq) fun seq seq' => ?_
  rintro u u' ⟨hunread, rfl, hu⟩
  refine Prog.couples_bind ((couples_nowS h.scripted).frame hnow hnow) (fun now now' => ?_) u u'
    ⟨hunread, hu⟩
  rintro u u' ⟨⟨hunread, hunread'⟩, rfl, hu⟩
  have hsweep (mode : ExecutionMode) (enforce : Bool) :
      (startupOpenOrderSweep (inputs.inMode mode).seams enforce).exec u =
        (.ok 0, u.record (.getOrders (.ok (.list [])))) :=
    startupOpenOrderSweep_flat hsurface (hread hstart hunread) enforce
  have hsweep' (mode : ExecutionMode) (enforce : Bool) :
      (startupOpenOrderSweep (inputs.inMode mode).seams enforce).exec u' =
        (.ok 0, u'.record (.getOrders (.ok (.list [])))) :=
    startupOpenOrderSweep_flat hsurface (hread hstart' hunread') enforce
  have hblock : decide (gates'.intentBlockReason = some .intentCancelAll) = false :=
    decide_eq_false fun hblock => h.intentBlockReason_ne (hgates.blocked.symm.trans hblock)
  rw [Prog.exec_bind_ok (hsweep _ _), Prog.exec_bind_ok (hsweep' _ _), hblock]
  simp only [Bool.false_and]
  have hsnapshot : buildRiskSnapshot (inputs.inMode .liveGuarded) risk' seq' (now' * 1000) =
      buildRiskSnapshot (inputs.inMode .dryRun) risk seq' (now' * 1000) := by
    unfold buildRiskSnapshot
    rw [hlosses.session, hlosses.day]
    rfl
  refine ⟨?_, hu.along (inStep_record rfl) (inStep_record rfl)⟩
  rw [hsnapshot]
  exact .snapshot _

end Opening

/-! ## The closing -/

/-- The live run can end as its policy says: the orders are left open, or the sweep answers. -/
def RunInputs.ShutsDown (inputs : RunInputs) : Prop :=
  inputs.shutdownPolicy = .leaveOpen ∨ ∃ sweep, inputs.seams.adapter.cancelAllOrders = some sweep ∧
    ∀ history, ∃ canceledCount, sweep history () = .ok canceledCount

section Closing

variable {inputs : RunInputs}

theorem returns_cancelAllAndBlock {seams : Seams} {cause : CancelAllCause}
    {sweep : Surface Unit ℤ}
    (hsweep : ∀ history, ∃ canceledCount, sweep history () = .ok canceledCount) :
    Prog.Returns (cancelAllAndBlock seams cause sweep) := by
  intro w
  unfold cancelAllAndBlock
  rw [Prog.exec_bind_ok Prog.exec_get]
  rcases cancelAllAndBlockEnter_cases (seams.clockMs w.history) cause w.session with
    ⟨ack, session, hentry, -⟩ | ⟨session, hentry, -⟩
  · rw [hentry]
    exact ⟨_, _, rfl⟩
  · rw [hentry]
    let u : World := { w with session := session }
    have hset : (setSession session).exec w = (.ok (), u) := rfl
    obtain ⟨canceledCount, hcount⟩ := hsweep u.history
    have hask : (ask sweep () .cancelAllOrders).exec u =
        (.ok canceledCount, u.record (.cancelAllOrders (.ok canceledCount))) := by
      rw [exec_ask, hcount]
    unfold finishCancelAll
    rw [Prog.exec_bind_ok hset, Prog.exec_bind_ok hask]
    exact ⟨_, _, rfl⟩

theorem returns_applyShutdownDecision (h : inputs.ShutsDown) :
    Prog.Returns (applyShutdownDecision inputs) := by
  unfold applyShutdownDecision
  split_ifs with hpolicy
  · rcases h with hopen | ⟨sweep, hsurface, hsweep⟩
    · simp [hopen] at hpolicy
    · refine Prog.returns_bind (fun w => ⟨w, w, rfl⟩) fun w => ?_
      refine Prog.returns_bind ?_ fun _ => Prog.returns_pure _
      unfold trigger requireCancelAllAdapter
      rw [if_pos rfl, hsurface, pure_bind]
      exact Prog.returns_bind (returns_cancelAllAndBlock hsweep) fun _ => Prog.returns_pure _
  · exact Prog.returns_pure _

/-- **The closing** of the two runs emits one label. Only the live one may sweep, and raise there. -/
theorem couples_closeRun (hscript : Scripted inputs.seams) :
    Prog.Couples (¬ inputs.ShutsDown) InStep (closeRun (inputs.inMode .dryRun))
      (closeRun (inputs.inMode .liveGuarded)) fun out out' _ _ => SameEvent out.1 out'.1 := by
  refine Prog.couples_bind couples_nextSeq fun seq seq' => ?_
  rintro w w' ⟨rfl, h⟩
  refine Prog.couples_bind (couples_nowS hscript) (fun now now' => ?_) w w' h
  rintro w w' ⟨rfl, h⟩
  have hdry : applyShutdownDecision (inputs.inMode .dryRun) =
      pure ⟨inputs.shutdownPolicy, false, false⟩ := by
    unfold applyShutdownDecision RunInputs.inMode
    simp
  rw [hdry, pure_bind]
  rcases hlive : (applyShutdownDecision (inputs.inMode .liveGuarded)).exec w' with
    ⟨e | decision, u⟩
  · rw [Prog.exec_bind_error hlive]
    intro hshuts
    have hreturn : Prog.Returns (applyShutdownDecision (inputs.inMode .liveGuarded)) :=
      returns_applyShutdownDecision hshuts
    obtain ⟨decision, v, hreturns⟩ := hreturn w'
    simp [hlive] at hreturns
  · rw [Prog.exec_bind_ok hlive]
    exact .label _

end Closing

/-! ## The two runs -/

section Runs

variable {inputs : RunInputs} {lone : Prop} {w w' : World}

/-- The primitive makes no call but the sweep. -/
theorem calls_cancelAllAndBlock {P : Call → Prop} (hP : ∀ answer, P (.cancelAllOrders answer))
    {seams : Seams} (cause : CancelAllCause) (sweep : Surface Unit ℤ) :
    Prog.Keeps (Calls P) (cancelAllAndBlock seams cause sweep) := by
  have hset (session : DustSafetySession) : Prog.Keeps (Calls P) (setSession session) :=
    Prog.keeps_modify fun _ => ⟨[], by simp⟩
  refine Prog.keeps_bind Prog.keeps_get fun w => ?_
  generalize cancelAllAndBlockEnter (seams.clockMs w.history) cause w.session = entry
  cases entry with
  | noop ack session => exact Prog.keeps_bind (hset session) fun _ => Prog.keeps_pure _
  | sweeping session =>
    refine Prog.keeps_bind (hset session) fun _ => ?_
    refine Prog.keeps_bind (calls_ask hP) fun canceledCount => ?_
    refine Prog.keeps_bind Prog.keeps_get fun w => ?_
    exact Prog.keeps_bind (hset _) fun _ => Prog.keeps_pure _

theorem unread_decideGates {risk : RiskAccumulator} {admission : StrategyAuthorizationDecision} :
    Prog.Keeps Unread (decideGates inputs risk admission) := by
  have harming : Prog.Keeps Unread (armingBlockReason inputs inputs.startSession.sessionId) := by
    unfold armingBlockReason
    cases inputs.mode with
    | liveGuarded =>
      simp only
      unfold modeBArmingBlockReason
      split
      · exact Prog.keeps_pure _
      · split
        · exact Prog.keeps_pure _
        · split
          · split_ifs
            · exact Prog.keeps_pure _
            · refine Prog.keeps_bind (calls_ask fun _ => rfl) fun verified => ?_
              split_ifs <;> exact Prog.keeps_pure _
          · exact Prog.keeps_pure _
    | dryRun => exact Prog.keeps_pure _
  refine Prog.keeps_bind harming fun arming => ?_
  exact Prog.keeps_bind (Prog.keeps_ofExcept _) fun wireSize => Prog.keeps_pure _

/-- The session preamble is printed in both modes or in neither. -/
theorem couples_buildSessionMeta {P : World → World → Prop} : Prog.Couples lone P
    (Prog.ofExcept (buildSessionMeta (inputs.inMode .dryRun)) : Lane _)
    (Prog.ofExcept (buildSessionMeta (inputs.inMode .liveGuarded)) : Lane _) fun _ _ => P := by
  intro u u' hu
  rw [Prog.exec_ofExcept, Prog.exec_ofExcept]
  unfold buildSessionMeta RunInputs.inMode
  simp only
  cases (Value.int inputs.manifest.maxOrders).toFloat with
  | error e => trivial
  | ok maxOrders => exact hu

/-- A run that starts with fills has folded the first one into its own accumulator. -/
theorem foldRealizedFills_session {seams : Seams} {envelope : PolicyEnvelope}
    {fill : RealizedFillRecord} {fills : List RealizedFillRecord} {risk risk' : RiskAccumulator}
    (h : (foldRealizedFills seams envelope (fill :: fills) risk).exec w = (.ok risk', w')) :
    fill.sessionId = risk.sessionId := by
  obtain ⟨sweep, t, -, h⟩ := Prog.exec_bind_returned h
  obtain ⟨next, u, hfill, -⟩ := Prog.exec_bind_returned h
  rw [onRealizedFill_eq] at hfill
  obtain ⟨folded, hfold, -⟩ := Prog.exec_ofExcept_returned hfill
  exact (RiskAccumulator.applyRealizedFill_ok.mp hfold).1

/-- What a run that returns has folded its fills into. -/
theorem runDustExecution_session {result : DustExecutionResult} {fill : RealizedFillRecord}
    {fills : List RealizedFillRecord} (hfills : inputs.realizedFills = fill :: fills)
    (h : (runDustExecution inputs).exec w = (.ok result, w')) :
    fill.sessionId = inputs.startRisk.sessionId := by
  unfold runDustExecution at h
  obtain ⟨sessionMeta, t, -, h⟩ := Prog.exec_bind_returned h
  rw [startRun, Prog.exec_bind_ok (Prog.exec_modify _)] at h
  obtain ⟨risk, u, htriggers, -⟩ := Prog.exec_bind_returned h
  unfold applySafetyTriggers at htriggers
  obtain ⟨folded, v, hfold, -⟩ := Prog.exec_bind_returned htriggers
  rw [hfills] at hfold
  exact foldRealizedFills_session hfold

/-- Where both runs return they share the session of their fills: the provisional ones differ. -/
theorem sharesRisk_of_returns {dry live : DustExecutionResult} {u u' : World}
    (hdry : (runDustExecution (inputs.inMode .dryRun)).exec w = (.ok dry, u))
    (hlive : (runDustExecution (inputs.inMode .liveGuarded)).exec w = (.ok live, u')) :
    inputs.SharesRisk := by
  unfold RunInputs.SharesRisk
  cases hfills : inputs.realizedFills with
  | nil => exact .inl rfl
  | cons fill fills =>
    right
    have hstart : fill.sessionId = (inputs.inMode .dryRun).startRisk.sessionId :=
      runDustExecution_session hfills hdry
    have hstart' : fill.sessionId = (inputs.inMode .liveGuarded).startRisk.sessionId :=
      runDustExecution_session hfills hlive
    have hsession := hstart.symm.trans hstart'
    unfold RunInputs.startRisk at hsession ⊢
    cases hrisk : inputs.risk with
    | some risk =>
      simp only [RunInputs.inMode, hrisk]
      rfl
    | none =>
      simp only [RunInputs.inMode, hrisk, Option.getD_none, RiskAccumulator.new] at hsession ⊢
      rw [hsession]

/-- **The two runs, side by side.** -/
theorem couples_runDustExecution (h : Rehearsable inputs w) (hshared : inputs.SharesRisk) :
    Prog.Couples (¬ inputs.ShutsDown) (fun u u' => u = w ∧ u' = w)
      (runDustExecution (inputs.inMode .dryRun)) (runDustExecution (inputs.inMode .liveGuarded))
      fun dry live _ _ => SameResult dry live := by
  refine Prog.couples_bind couples_buildSessionMeta fun sessionMeta sessionMeta' => ?_
  rintro _ _ ⟨rfl, rfl⟩
  rename_i w
  let start : World :=
    { w with session := (inputs.inMode .dryRun).startSession, nextSeq := 1 }
  let start' : World :=
    { w with session := (inputs.inMode .liveGuarded).startSession, nextSeq := 1 }
  rw [startRun, Prog.exec_bind_ok (Prog.exec_modify _), startRun,
    Prog.exec_bind_ok (Prog.exec_modify _)]
  have hblocked : start.session.submitBlocked = start'.session.submitBlocked := by
    simp only [start, start', RunInputs.startSession, RunInputs.inMode]
    cases inputs.session <;> rfl
  have halike : Alike start start' := ⟨rfl, rfl, hblocked⟩
  have hunread (mode : ExecutionMode) (risk : RiskAccumulator) :
      Prog.Keeps Unread (applySafetyTriggers (inputs.inMode mode) risk) :=
    keeps_applySafetyTriggers (calls_cancelAllAndBlock fun _ => rfl) risk
  refine Prog.couples_bind ((couples_applySafetyTriggers hshared).frame (hunread _ _)
    (hunread _ _)) (fun risk risk' => ?_) start start'
    ⟨⟨Std.Refl.refl start, Std.Refl.refl start'⟩, halike⟩
  rintro u u' ⟨hsince, hlosses, hu⟩
  refine Prog.couples_bind ((couples_decideGates h hlosses).frame unread_decideGates
    unread_decideGates) (fun gates gates' => ?_) u u' ⟨hsince, hu.inStep⟩
  rintro u u' ⟨hsince, hgates, hu⟩
  refine Prog.couples_bind (couples_openRun h rfl rfl hlosses hgates)
    (fun snapshot snapshot' => ?_) u u' ⟨hsince, hu⟩
  rintro u u' ⟨hsnapshot, hu⟩
  obtain rfl := hgates.same
  refine Prog.couples_bind (couples_runTokens h.scripted h.venueAnswers hgates.genuine hgates.armed
    (hgates.intent ▸ h.effectiveIntent_ne) _ _) (fun out out' => ?_) u u' hu
  obtain ⟨decisions, tokenEvents⟩ := out
  obtain ⟨decisions', tokenEvents'⟩ := out'
  rintro u u' ⟨hdecisions, hevents, hu⟩
  refine Prog.couples_bind (couples_closeRun h.scripted) (fun closed closed' => ?_) u u' hu
  exact Prog.couples_pure fun _ _ hlabel =>
    ⟨.cons hsnapshot (List.rel_append hevents (.cons hlabel .nil)), hdecisions⟩

end Runs

/-! ## What a dry run touches -/

/-- Some fill, once folded, breaches a cap. -/
def FillsBreach (envelope : PolicyEnvelope) : List RealizedFillRecord → RiskAccumulator → Prop
  | [], _ => False
  | fill :: fills, risk => ∃ next, risk.applyRealizedFill (.realized fill) = .ok next ∧
      (next.breachesCaps envelope = true ∨ FillsBreach envelope fills next)

/-- A safety trigger fires on a session that is open: a fill breaches, the breaker is open or the
kill switch is engaged. -/
def RunInputs.TriggerFires (inputs : RunInputs) : Prop :=
  inputs.startSession.submitBlocked = false ∧
    (FillsBreach inputs.envelope inputs.realizedFills inputs.startRisk ∨
      inputs.breakerOpen = true ∨ inputs.envelope.killSwitch = true)

/-- Only offline calls are made. -/
abbrev OfflineCalls : World → World → Prop := Calls fun call => call.isOffline = true

section Offline

variable {inputs : RunInputs} {w w' : World}

theorem Call.isWrite_of_isOffline {call : Call} (h : call.isOffline = true) :
    call.isWrite = false := by
  cases call with
  | submitOrder _ _ | cancelSingleOrder _ _ => simp [isOffline] at h
  | _ => rfl

theorem offlineKept_calls : OfflineKept OfflineCalls := ⟨fun h => calls_ask h, calls_nextSeq⟩

/-- Fills that breach nothing are folded without a call. -/
theorem foldRealizedFills_within {seams : Seams} {envelope : PolicyEnvelope} :
    ∀ {fills : List RealizedFillRecord} {risk : RiskAccumulator},
      ¬ FillsBreach envelope fills risk →
      ∀ w, ((foldRealizedFills seams envelope fills risk).exec w).2 = w := by
  intro fills
  induction fills with
  | nil =>
    intro risk _ w
    rfl
  | cons fill fills ih =>
    intro risk hwithin w
    unfold foldRealizedFills requireCancelAllAdapter
    cases seams.adapter.cancelAllOrders with
    | none => rfl
    | some sweep =>
      simp only
      rw [pure_bind, onRealizedFill_eq, bind_assoc]
      cases hfold : risk.applyRealizedFill (.realized fill) with
      | error e =>
        rw [Prog.exec_bind_error (Prog.exec_ofExcept _)]
      | ok next =>
        have hnext : next.breachesCaps envelope = false := by
          by_contra hbreach
          exact hwithin ⟨next, hfold, .inl (by simpa using hbreach)⟩
        rw [Prog.exec_bind_ok (Prog.exec_ofExcept _), hnext]
        simp only [Bool.false_eq_true, if_false]
        rw [pure_bind]
        exact ih (fun hbreach => hwithin ⟨next, hfold, .inr hbreach⟩) w

/-- **The safety triggers** sweep only where one of them fires. -/
theorem applySafetyTriggers_sweeps {start : World} (hstart : start.session = inputs.startSession)
    {r : Except PyExc RiskAccumulator}
    (h : (applySafetyTriggers inputs inputs.startRisk).exec start = (r, w')) :
    ∃ new, w'.history = start.history ++ new ∧ (∀ call ∈ new, call.isWrite = false) ∧
      ((∃ call ∈ new, call.isSweep = true) → inputs.TriggerFires) := by
  obtain ⟨new, hnew, hwrite⟩ := (keeps_applySafetyTriggers
    (calls_cancelAllAndBlock (P := fun call => call.isWrite = false) fun _ => rfl) _).of_exec h
  refine ⟨new, hnew, hwrite, ?_⟩
  rintro ⟨call, hcall, hsweep⟩
  by_contra hquiet
  unfold RunInputs.TriggerFires at hquiet
  by_cases hopen : inputs.startSession.submitBlocked = false
  · simp only [hopen, true_and, not_or, Bool.not_eq_true] at hquiet
    obtain ⟨hwithin, hbreaker, hkill⟩ := hquiet
    have hsame : w' = start := by
      unfold applySafetyTriggers at h
      have hfold :
          ((foldRealizedFills inputs.seams inputs.envelope inputs.realizedFills
            inputs.startRisk).exec start).2 = start := foldRealizedFills_within hwithin start
      obtain ⟨e, hraise, -⟩ | ⟨folded, t, hfolded, hrest⟩ := Prog.exec_bind_cases h
      · rw [hraise] at hfold
        exact hfold
      · rw [hfolded] at hfold
        rw [hbreaker, hkill] at hrest
        exact (Prod.mk.inj hrest).2.symm.trans hfold
    rw [hsame] at hnew
    obtain rfl : new = [] := List.append_cancel_left (hnew.symm.trans (List.append_nil _).symm)
    simp at hcall
  · obtain ⟨new', hnew', hcount⟩ :=
      (keeps_applySafetyTriggers oneSweep_cancelAllAndBlock _).of_exec h
    obtain rfl := List.append_cancel_left (hnew.symm.trans hnew')
    have hnone : sweepsIn new = 0 := by
      have hle := Bool.toNat_le w'.session.submitBlocked
      rw [hcount, hstart, Bool.not_eq_false _ |>.mp hopen, Bool.toNat_true] at hle
      omega
    exact absurd hsweep (by simpa using List.countP_eq_zero.mp hnone call hcall)

/-- The startup read of a run that does not enforce it. -/
theorem offline_startupOpenOrderSweep (seams : Seams) :
    Prog.Keeps OfflineCalls (startupOpenOrderSweep seams false) := by
  have hread : Prog.Keeps OfflineCalls (readStartupOpenOrders seams.adapter) := by
    refine Prog.keeps_bind (keeps_readSurface (fun _ => offlineKept_calls.ask fun _ => rfl) _)
      fun answer => ?_
    split <;> exact Prog.keeps_pure _
  unfold startupOpenOrderSweep trigger
  refine Prog.keeps_bind hread fun orders => ?_
  cases orders with
  | none => exact Prog.keeps_pure _
  | some orders =>
    simp only [Bool.false_and, Bool.false_eq_true, if_false]
    exact Prog.keeps_bind (Prog.keeps_pure _) fun _ => Prog.keeps_pure _

theorem offline_openRun (hmode : inputs.mode = .dryRun) {risk : RiskAccumulator}
    {gates : RunGates} : Prog.Keeps OfflineCalls (openRun inputs risk gates) := by
  have hlive : decide (inputs.mode = .liveGuarded) = false := by simp [hmode]
  have hnone : trigger inputs.seams false .manual = pure () := rfl
  unfold openRun
  simp only [hlive, Bool.false_and, Bool.and_false, hnone, pure_bind]
  refine Prog.keeps_bind offlineKept_calls.nextSeq fun seq => ?_
  refine Prog.keeps_bind (offlineKept_calls.ask fun _ => rfl) fun now => ?_
  exact Prog.keeps_bind (offline_startupOpenOrderSweep _) fun _ => Prog.keeps_pure _

/-- After its triggers a dry run makes offline calls only. -/
theorem runDustExecution_offline (hmode : inputs.mode = .dryRun)
    {r : Except PyExc DustExecutionResult} (h : (runDustExecution inputs).exec w = (r, w')) :
    ∃ own, w'.history = w.history ++ own ∧ (∀ call ∈ own, call.isWrite = false) ∧
      ((∃ call ∈ own, call.isSweep = true) → inputs.TriggerFires) := by
  let start : World := { w with session := inputs.startSession, nextSeq := 1 }
  -- the calls of the triggers, then offline ones
  have hcalls {r : Except PyExc RiskAccumulator} {u : World}
      (htriggers : (applySafetyTriggers inputs inputs.startRisk).exec start = (r, u))
      (hrest : OfflineCalls u w') : ∃ own, w'.history = w.history ++ own ∧
        (∀ call ∈ own, call.isWrite = false) ∧
        ((∃ call ∈ own, call.isSweep = true) → inputs.TriggerFires) := by
    obtain ⟨new, hnew, hwrite, hsweep⟩ := applySafetyTriggers_sweeps rfl htriggers
    obtain ⟨rest, hw', hoffline⟩ := hrest
    refine ⟨new ++ rest, by rw [hw', hnew, List.append_assoc], ?_, ?_⟩
    · intro call hcall
      rcases List.mem_append.mp hcall with hcall | hcall
      · exact hwrite call hcall
      · exact Call.isWrite_of_isOffline (hoffline call hcall)
    · rintro ⟨call, hcall, hswept⟩
      rcases List.mem_append.mp hcall with hcall | hcall
      · exact hsweep ⟨call, hcall, hswept⟩
      · have hquiet := Call.isQuiet_of_isOffline (hoffline call hcall)
        simp [Call.isQuiet, hswept] at hquiet
  unfold runDustExecution at h
  obtain ⟨e, -, rfl, rfl⟩ | ⟨sessionMeta, -, h⟩ := Prog.exec_ofExcept_cases h
  · exact ⟨[], by simp, by simp, by simp⟩
  rw [startRun, Prog.exec_bind_ok (Prog.exec_modify _)] at h
  obtain ⟨e, htriggers, rfl⟩ | ⟨risk, u, htriggers, h⟩ := Prog.exec_bind_cases h
  · exact hcalls htriggers (Std.Refl.refl _)
  refine hcalls htriggers (Prog.Keeps.of_exec (R := OfflineCalls) ?_ h)
  have hdecide (admission : StrategyAuthorizationDecision) :
      Prog.Keeps OfflineCalls (decideGates inputs risk admission) := by
    unfold decideGates armingBlockReason
    simp only [hmode]
    refine Prog.keeps_bind (Prog.keeps_pure _) fun arming => ?_
    exact Prog.keeps_bind (Prog.keeps_ofExcept _) fun wireSize => Prog.keeps_pure _
  refine Prog.keeps_bind (hdecide _) fun gates => ?_
  refine Prog.keeps_bind (offline_openRun hmode) fun snapshot => ?_
  refine Prog.keeps_bind (keeps_runTokens_dryRun offlineKept_calls hmode _ _) fun out => ?_
  refine Prog.keeps_bind ?_ fun closed => Prog.keeps_pure _
  unfold closeRun applyShutdownDecision
  simp only [hmode, reduceCtorEq, and_false, if_false]
  refine Prog.keeps_bind offlineKept_calls.nextSeq fun seq => ?_
  refine Prog.keeps_bind (offlineKept_calls.ask fun _ => rfl) fun now => ?_
  exact Prog.keeps_bind (Prog.keeps_pure _) fun _ => Prog.keeps_pure _

end Offline

/-- **A rehearsal**: the dry run and the live run of the same inputs, from the same world. -/
structure Rehearses (inputs : RunInputs) (w : World) : Prop where
  /-- Where both runs return, the stream and the decisions are the same. -/
  same : ∀ dry live u u',
    (runDustExecution (inputs.inMode .dryRun)).exec w = (.ok dry, u) →
    (runDustExecution (inputs.inMode .liveGuarded)).exec w = (.ok live, u') →
    SameResult dry live
  /-- A dry run that returns rehearses a live run that does, if the live one can shut down. -/
  live_returns : inputs.SharesRisk → inputs.ShutsDown → ∀ dry u,
    (runDustExecution (inputs.inMode .dryRun)).exec w = (.ok dry, u) →
    ∃ live u', (runDustExecution (inputs.inMode .liveGuarded)).exec w = (.ok live, u')
  dry_returns : inputs.SharesRisk → ∀ live u',
    (runDustExecution (inputs.inMode .liveGuarded)).exec w = (.ok live, u') →
    ∃ dry u, (runDustExecution (inputs.inMode .dryRun)).exec w = (.ok dry, u)
  /-- The dry run neither submits nor cancels an order, and sweeps only on a safety trigger. -/
  offline : ∃ own, ((runDustExecution (inputs.inMode .dryRun)).exec w).2.history =
      w.history ++ own ∧ (∀ call ∈ own, call.isWrite = false) ∧
    ((∃ call ∈ own, call.isSweep = true) → (inputs.inMode .dryRun).TriggerFires)

/-- **A dry run rehearses the live one**, whatever the quotes, the envelope, the caps, the legs and
the fills are: with an armed bundle, an empty book at the start, surfaces that answer, and an intent
that takes, makes or is not there. -/
theorem runDustExecution_rehearses (inputs : RunInputs) (w : World) (h : Rehearsable inputs w) :
    Rehearses inputs w where
  same _ _ _ _ hdry hlive :=
    (couples_runDustExecution h (sharesRisk_of_returns hdry hlive)).ok ⟨rfl, rfl⟩ hdry hlive
  live_returns hshared hshuts _ _ hdry :=
    (couples_runDustExecution h hshared).ok_right ⟨rfl, rfl⟩ (not_not.mpr hshuts) hdry
  dry_returns hshared _ _ hlive :=
    (couples_runDustExecution h hshared).ok_left ⟨rfl, rfl⟩ hlive
  offline := runDustExecution_offline rfl rfl

/-! ## Two rehearsals on fixed inputs -/

namespace ArmedRun

/-- The armed inputs, with the kill switch engaged or not. -/
def rehearsed (killSwitch : Bool) : RunInputs :=
  { inputs [] none "token" with envelope := { envelope with killSwitch } }

/-- The armed inputs can be rehearsed. -/
theorem rehearsable (killSwitch : Bool) : Rehearsable (rehearsed killSwitch) start where
  scripted := ⟨fun _ => rfl, fun _ _ => rfl⟩
  arms u := by
    have htechnical : technicalBlockReason digests ArmedRun.arming (manifest [])
        { envelope with killSwitch } (seams "token").signer = none := by
      cases killSwitch <;> decide +kernel
    have hcanonical : interlockEventsAreCanonical interlockEvents = true := by
      decide +kernel
    have hproof : ArmedRun.arming.operatorInterlock =
        some ⟨true, "receipt", interlockEvents, some "operator"⟩ := rfl
    unfold modeBArmingBlockReason
    simp only [rehearsed, inputs, htechnical, hproof, hcanonical, Bool.not_true,
      Bool.false_eq_true, if_false]
    exact ⟨_, rfl⟩
  flat := ⟨_, rfl, fun _ _ => rfl⟩
  signs _ _ := ⟨_, rfl⟩
  submits := by
    rintro bundle hbundle writePort hport history order
    obtain rfl := Option.some.inj hbundle
    obtain rfl := Option.some.inj hport
    exact ⟨_, _, rfl⟩
  reconciles record w := by
    have hassess := exec_assessUncertainSubmit (rehearsed killSwitch).seams.adapter record w
    rcases hrun : (assessUncertainSubmit (rehearsed killSwitch).seams.adapter record).exec w with
      ⟨_ | verdict, w'⟩
    · rw [hrun] at hassess
      split_ifs at hassess
      have hverdict : (venueTruth (rehearsed killSwitch).seams.adapter record.venueOrderKey
          w.history).assess (rehearsed killSwitch).seams.adapter.textOf record.venueOrderKey =
          .ok (verdictOf record.venueOrderKey 0 false none) :=
        assess_ok.mpr ⟨0, false, none, rfl, rfl, rfl, rfl⟩
      rw [hverdict] at hassess
      simp at hassess
    · exact ⟨verdict, w', rfl⟩
  intent := by
    rintro request hrequest
    simp [rehearsed, inputs] at hrequest

end ArmedRun

/-- The armed run places its order, and its rehearsal would have. -/
theorem runDustExecution_rehearses_armed :
    orderedTokens ((runDustExecution ((ArmedRun.rehearsed false).inMode .liveGuarded)).exec
      ArmedRun.start).2.history = ["token"] ∧
    Rehearses (ArmedRun.rehearsed false) ArmedRun.start :=
  ⟨by decide +kernel, runDustExecution_rehearses _ _ (ArmedRun.rehearsable false)⟩

/-- Under an engaged kill switch the dry run sweeps: the emergency stop is not gated on the mode. -/
theorem runDustExecution_dryRun_sweeps : Rehearsable (ArmedRun.rehearsed true) ArmedRun.start ∧
    ∃ call ∈ ((runDustExecution ((ArmedRun.rehearsed true).inMode .dryRun)).exec
      ArmedRun.start).2.history, call.isSweep = true := by
  refine ⟨ArmedRun.rehearsable true, ?_⟩
  have hsweeps : sweepsIn ((runDustExecution ((ArmedRun.rehearsed true).inMode .dryRun)).exec
      ArmedRun.start).2.history = 1 := by
    decide +kernel
  exact List.countP_pos_iff.mp (by rw [sweepsIn] at hsweeps; omega)

end Veridex.DustExecution
