import Veridex.DustExecution.SingleOrder

/-!
# A target the universe lists twice (`facade.py`, `runner.py`)

An open venue answers every call and stops nothing: its book is empty, its quotes are fresh and
two-sided, and its write port accepts every order. In it a request that its manifest and envelope
allow is dispatched once for each occurrence of its target, so the second order is placed too unless
an order cap of one blocks it.

Results: `runTokens_open` (the loop in an open venue), `proposeMMExecution_once_iff`.
-/

namespace Veridex.DustExecution

open Veridex.Py Veridex.Policy Veridex.Lib

/-! ## A venue that stops nothing -/

namespace OpenVenue

/-- An empty book, and any order that is asked about is cancelled. -/
def adapter : Adapter where
  getOrders := some fun _ _ => .ok (.list [])
  getOrder := some fun _ _ => .ok (.dict [("status", .str "canceled")])
  getFillHistory := none
  cancelAllOrders := none
  cancelSingleOrder := some fun _ _ => .ok (.dict [])
  textOf _ := ""

/-- The quote of a token: one half on both sides, as old as it may be. -/
def quote (maxQuoteAgeS : ℤ) (tokenId : String) : DustQuote where
  tokenId
  quoteTsS := -maxQuoteAgeS
  bid := some ⟨.fin (1 / 2), .fin 1⟩
  ask := some ⟨.fin (1 / 2), .fin 1⟩

/-- The clock stands still. -/
def seams (maxQuoteAgeS : ℤ) : Seams where
  adapter := adapter
  signer := ⟨.privyEvm, fun _ _ => .ok "digest"⟩
  readQuote _ tokenId := .ok (quote maxQuoteAgeS tokenId)
  nowFn _ _ := .ok 0
  clockMs _ := 0

/-- A write port that accepts every order. -/
def writePort : ModeBWritePort := fun _ _ => .ok ⟨⟨"", "", none⟩, .dict []⟩

/-- The authorization of an attempt. -/
def orderAuth : PrivyAuthContext := ⟨0, [], 1, "attempt"⟩

/-- A bundle that arms under the wallet's custody. -/
def bundle (binding : ExecutionWalletBinding) (livePolicy : PrivyWalletPolicy)
    (liveQuorum : AuthorizationQuorum) : ModeBArming where
  modeAPassed := true
  clobv2Gate := ⟨true, true, true, true, some true⟩
  privyPreflightOk := some true
  provisioningOk := some true
  binding
  livePolicy
  liveQuorum
  writePort := some writePort
  orderAuth := some orderAuth

/-- The interlock's store takes every gate and verifies every receipt. -/
def interlockStore : OperatorInterlockStore := ⟨fun _ _ => .ok "receipt", fun _ _ => .ok true⟩

end OpenVenue

/-- The call in an open venue. -/
def ProposeInputs.inOpenVenue (inputs : ProposeInputs) (binding : ExecutionWalletBinding)
    (livePolicy : PrivyWalletPolicy) (liveQuorum : AuthorizationQuorum) : ProposeInputs :=
  { inputs with
    seams := OpenVenue.seams inputs.envelope.maxQuoteAgeS
    arming := some (OpenVenue.bundle binding livePolicy liveQuorum)
    operatorInterlock := some ArmedCall.operatorInterlock
    interlockStore := some OpenVenue.interlockStore
    outage := {}
    eventSink := none }

/-- A live run in an open venue, with an open session and no legs of its own. -/
structure OpenRun (inputs : RunInputs) : Prop where
  live : inputs.mode = .liveGuarded
  seams : inputs.seams = OpenVenue.seams inputs.envelope.maxQuoteAgeS
  ownLegs : inputs.ownLegs = []
  tick : inputs.tickSize = .fin (1 / 100)
  bundled : ∃ bundle, inputs.arming = some bundle ∧ bundle.writePort = some OpenVenue.writePort ∧
    bundle.orderAuth = some OpenVenue.orderAuth

/-- Gates that let every order through. -/
structure RunGates.AllOpen (gates : RunGates) : Prop where
  arming : gates.armingBlockReason = none
  authorization : gates.authorizationBlockReason = none
  lossCap : gates.lossCapBlockReason = none
  intent : gates.intentBlockReason = none

section OneToken

variable {ctx : LifecycleContext} {w : World}

/-- One leg whose price is on the tick crosses nothing. -/
theorem nonCrossingGate_single {tokenId : String} {side : Side} {price tickSize : PyFloat}
    {tick rounded : ℚ} (htick : validateTickSize tickSize = .ok tick)
    (hprice : validateAndRoundPrice price tick = .ok rounded) :
    nonCrossingGate ⟨tokenId, side.text, price, .proposed, none⟩ [] tickSize = .ok none := by
  have hlive : legIsPossiblyLive ⟨tokenId, side.text, price, .proposed, none⟩ = true := rfl
  unfold nonCrossingGate checkNonCrossing
  rw [htick]
  cases side with
  | buy =>
    have hside : sideOf ⟨tokenId, Side.text .buy, price, .proposed, none⟩ = .ok .buy := rfl
    simp [bind, Except.bind, pure, Except.pure, crossingStep, hprice, hside, hlive, keepExtreme,
      crossingOf]
  | sell =>
    have hside : sideOf ⟨tokenId, Side.text .sell, price, .proposed, none⟩ = .ok .sell := rfl
    simp [bind, Except.bind, pure, Except.pure, crossingStep, hprice, hside, hlive, keepExtreme]

/-- Half a price crosses nothing. -/
theorem nonCrossingGate_half (tokenId : String) (side : Side) :
    nonCrossingGate ⟨tokenId, side.text, .fin (1 / 2), .proposed, none⟩ [] (.fin (1 / 100)) =
      .ok none := by
  have hprice : validateAndRoundPrice (.fin (1 / 2)) (1 / 100) = .ok (1 / 2) := by
    decide +kernel
  exact nonCrossingGate_single (validateTickSize_ok.mpr ⟨rfl, by norm_num, by norm_num⟩) hprice

theorem returns_nextSeq : Prog.Returns nextSeq := fun w => ⟨_, _, exec_nextSeq w⟩

/-- An order without a venue key is not asked about. -/
theorem returns_reconcileAfterSubmit (adapter : Adapter) {presubmit : PreSubmitRecord}
    (hkey : presubmit.venueOrderKey = "") :
    Prog.Returns (reconcileAfterSubmit adapter presubmit) := by
  unfold reconcileAfterSubmit assessUncertainSubmit
  simp only [hkey, if_true]
  exact Prog.returns_bind (Prog.returns_pure _) fun _ => Prog.returns_pure _

/-- A write port that accepts every order completes a lifecycle. -/
theorem returns_emitLifecycle (hmode : ctx.mode = .liveGuarded)
    (hbundle : ∃ bundle, ctx.arming = some bundle ∧ bundle.writePort = some OpenVenue.writePort ∧
      bundle.orderAuth = some OpenVenue.orderAuth)
    {order : LifecycleOrder} (hprice : ∃ price, UnitPrice.ofFloat order.nativePrice = .ok price) :
    Prog.Returns (emitLifecycle ctx order) := by
  obtain ⟨bundle, harming, hport, hauth⟩ := hbundle
  obtain ⟨price, hprice⟩ := hprice
  have hplaced : ∀ w, ∃ w', (placeOrder ctx order price).exec w =
      (.ok (⟨"", "", none⟩, some (.dict [])), w') := by
    intro w
    unfold placeOrder
    simp only [hmode, harming, hport, hauth]
    exact ⟨_, rfl⟩
  intro w
  unfold emitLifecycle
  rw [Prog.exec_bind_ok (exec_nextSeq w), hprice, Prog.exec_bind_ok (Prog.exec_ofExcept _)]
  obtain ⟨u, hu⟩ := hplaced { w with nextSeq := w.nextSeq + 1 }
  simp only
  rw [Prog.exec_bind_ok hu]
  have hack : ∃ ack, ackFields ctx.seams.adapter.textOf (some (.dict [])) = .ok ack := ⟨_, rfl⟩
  obtain ⟨ack, hack⟩ := hack
  have hcomplete : Prog.Returns (completeLifecycle ctx order ⟨⟨w.nextSeq, some ctx.sourceTs,
      ctx.nowS * 1000⟩, order.tokenId, order.side.text, price, order.size, order.tif,
      order.clientOrderId, order.clientOrderId, ctx.nowS * 1000⟩ ⟨"", "", none⟩
      (some (.dict []))) := by
    refine Prog.returns_bind returns_nextSeq fun attemptSeq => ?_
    refine Prog.returns_bind (Prog.returns_ofExcept hack) fun ack => ?_
    refine Prog.returns_bind returns_nextSeq fun ackSeq => ?_
    refine Prog.returns_bind (returns_reconcileAfterSubmit _ rfl) fun verdict => ?_
    refine Prog.returns_bind returns_nextSeq fun statusSeq => ?_
    exact Prog.returns_bind returns_nextSeq fun reconciliationSeq => Prog.returns_pure _
  exact hcomplete u

/-- The order to be replaced is seen to be gone. -/
theorem cancelOldOrder_open {replaces : String} (hreplaces : replaces ≠ "") (w : World) :
    ∃ canceled w', (cancelOldOrder OpenVenue.adapter replaces).exec w =
      (.ok (canceled, true), w') := by
  have hterminal : isTerminalRecord (fun _ => "") (.dict [("status", .str "canceled")]) =
      .ok true := by
    decide +kernel
  let u : World := w.record (.cancelSingleOrder replaces (.ok (.dict [])))
  have hassess : ((assessUncertainSubmit OpenVenue.adapter ⟨"", replaces, none⟩).exec u).1 =
      .ok (verdictOf replaces 0 true none) := by
    rw [exec_assessUncertainSubmit, if_neg hreplaces]
    have hterm : evidenceOf false (isTerminalRecord OpenVenue.adapter.textOf)
        (venueTruth OpenVenue.adapter replaces u.history).order = .ok true := hterminal
    exact assess_ok.mpr ⟨0, true, none, rfl, hterm, rfl, rfl⟩
  rcases hrun : (assessUncertainSubmit OpenVenue.adapter ⟨"", replaces, none⟩).exec u with ⟨r, v⟩
  rw [hrun] at hassess
  obtain rfl : r = .ok (verdictOf replaces 0 true none) := hassess
  have hask : (ask (fun _ _ => .ok (.dict [])) replaces (.cancelSingleOrder replaces)).exec w =
      (.ok (.dict []), u) := exec_ask _ _ _ _
  have hcancel : OpenVenue.adapter.cancelSingleOrder = some fun _ _ => .ok (.dict []) := rfl
  refine ⟨listsCanceled replaces (.dict []), v, ?_⟩
  unfold cancelOldOrder oldOrderTerminalWithdrawn reconcileAfterSubmit
  simp only [hcancel, bind_assoc]
  rw [Prog.exec_bind_ok hask, Prog.exec_bind_ok hrun]
  rfl

/-- A replacement is placed. -/
theorem emitCancelReplaceLifecycle_open (hmode : ctx.mode = .liveGuarded)
    (hadapter : ctx.seams.adapter = OpenVenue.adapter)
    (hbundle : ∃ bundle, ctx.arming = some bundle ∧ bundle.writePort = some OpenVenue.writePort ∧
      bundle.orderAuth = some OpenVenue.orderAuth) (resting : RestingOrder) {replaces : String}
    (hreplaces : replaces ≠ "")
    (hprice : ∃ price, UnitPrice.ofFloat resting.lifecycleOrder.nativePrice = .ok price) :
    ∃ out w', (emitCancelReplaceLifecycle ctx resting replaces).exec w = (.ok out, w') ∧
      decisionPlaced out.1 = true := by
  obtain ⟨canceled, t, hold⟩ := cancelOldOrder_open hreplaces w
  obtain ⟨⟨decision, life⟩, u, hlife⟩ :=
    returns_emitLifecycle hmode hbundle hprice { t with nextSeq := t.nextSeq + 1 }
  unfold emitCancelReplaceLifecycle emitRestingLifecycle
  rw [hmode, hadapter]
  simp only
  rw [Prog.exec_bind_ok hold]
  simp only [Bool.true_eq_false, and_false, if_false, bind_assoc, pure_bind]
  rw [Prog.exec_bind_ok (exec_nextSeq t), Prog.exec_bind_ok hlife]
  exact ⟨_, _, rfl, (emitLifecycle_numbered hlife).1⟩

end OneToken

section OpenRun

variable {inputs : RunInputs} {gates : RunGates} {tokenId : String} {nowS : ℤ} {w : World}

theorem unitPrice_ofFloat_fin {q : ℚ} (h : 0 ≤ q ∧ q ≤ 1) :
    ∃ price, UnitPrice.ofFloat (.fin q) = .ok price := ⟨⟨q, h⟩, dif_pos h⟩

/-- **An intent that builds its order places it**, in an open venue. -/
theorem dispatchIntent_open (hopen : OpenRun inputs)
    (hbuilds : Builds inputs gates.intent gates.intentParams gates.wireSize tokenId) :
    ∃ out w', (dispatchIntent inputs gates tokenId
      (OpenVenue.quote inputs.envelope.maxQuoteAgeS tokenId) nowS).exec w = (.ok out, w') ∧
        decisionPlaced out.1 = true := by
  obtain ⟨htake, hmake, hreplace⟩ := hbuilds
  let quote := OpenVenue.quote inputs.envelope.maxQuoteAgeS tokenId
  have hmode : (inputs.lifecycleContext quote nowS).mode = .liveGuarded := hopen.live
  have hbundle : ∃ bundle, (inputs.lifecycleContext quote nowS).arming = some bundle ∧
    bundle.writePort = some OpenVenue.writePort ∧ bundle.orderAuth = some OpenVenue.orderAuth :=
    hopen.bundled
  have hlife {order : LifecycleOrder}
      (hprice : ∃ price, UnitPrice.ofFloat order.nativePrice = .ok price) :
      ∃ out w', (do
        let out ← emitLifecycle (inputs.lifecycleContext quote nowS) order
        return (out.1, out.2.events) : Lane _).exec w = (.ok out, w') ∧
          decisionPlaced out.1 = true := by
    obtain ⟨⟨decision, life⟩, u, hrun⟩ := returns_emitLifecycle hmode hbundle hprice w
    rw [Prog.exec_bind_ok hrun]
    exact ⟨_, _, rfl, (emitLifecycle_numbered hrun).1⟩
  unfold dispatchIntent
  by_cases hkind : gates.intent = .take
  · rw [if_pos hkind]
    obtain ⟨⟨side, tif⟩, hside⟩ := Option.isSome_iff_exists.mp (htake hkind)
    have hcross : crossingPrice side ⟨.fin (1 / 2), .fin 1⟩ ⟨.fin (1 / 2), .fin 1⟩ =
        .fin (1 / 2) := by
      cases side <;> rfl
    have hbid : (OpenVenue.quote inputs.envelope.maxQuoteAgeS tokenId).bid =
        some ⟨.fin (1 / 2), .fin 1⟩ := rfl
    have hask : (OpenVenue.quote inputs.envelope.maxQuoteAgeS tokenId).ask =
        some ⟨.fin (1 / 2), .fin 1⟩ := rfl
    unfold dispatchTake unlessCrossing emitOrderLifecycle
    simp only [hside, hbid, hask, hcross, hopen.ownLegs, hopen.tick]
    rw [nonCrossingGate_half, Prog.exec_bind_ok (Prog.exec_ofExcept _)]
    refine hlife ?_
    rw [show (takerOrder inputs.manifest (OpenVenue.quote inputs.envelope.maxQuoteAgeS tokenId)
      ⟨.fin (1 / 2), .fin 1⟩ ⟨.fin (1 / 2), .fin 1⟩ side tif gates.wireSize).nativePrice = _ from
      hcross]
    exact unitPrice_ofFloat_fin (by norm_num)
  · rw [if_neg hkind]
    obtain ⟨resting, hresting, hgate⟩ := hmake hkind
    have hprice : ∃ price, UnitPrice.ofFloat resting.lifecycleOrder.nativePrice = .ok price :=
      unitPrice_ofFloat_fin ⟨resting.price_inside.1.le, resting.price_inside.2.le⟩
    unfold dispatchMaker unlessCrossing
    simp only [hresting]
    rw [hgate, Prog.exec_bind_ok (Prog.exec_ofExcept _)]
    unfold emitMaker
    by_cases hcancel : gates.intent = .cancelReplace
    · obtain ⟨replaces, hreplaces, hne⟩ := hreplace hcancel
      obtain hreplaces : gates.intentParams.replacesClientOrderId = some replaces := hreplaces
      simp only [if_pos hcancel, hreplaces, if_neg hne]
      exact emitCancelReplaceLifecycle_open hmode (congrArg Seams.adapter hopen.seams) hbundle resting
        hne hprice
    · simp only [if_neg hcancel]
      exact hlife hprice

/-- **A target whose order builds is placed**, below every cap. -/
theorem decideAndSubmit_open (hopen : OpenRun inputs) (hgates : gates.AllOpen)
    (hsession : w.session.submitBlocked = false)
    (horderable : Orderable inputs gates tokenId) :
    ∃ out w', (decideAndSubmit inputs gates none tokenId).exec w = (.ok out, w') ∧
      decisionPlaced out.1 = true := by
  have hpre : preQuoteBlockReason inputs gates tokenId = none := by
    unfold preQuoteBlockReason
    rw [Option.orElse_eq_none, Option.orElse_eq_none, if_pos hopen.live]
    refine ⟨hgates.intent, ?_, hgates.arming⟩
    rw [if_neg]
    rintro ⟨henforce, hne⟩
    exact hne (horderable.1 henforce).symm
  let quote := OpenVenue.quote inputs.envelope.maxQuoteAgeS tokenId
  have hread : ∃ u, (readQuote inputs.seams tokenId).exec w = (.ok (some quote), u) ∧
      u.session = w.session := by
    unfold readQuote
    rw [hopen.seams, Prog.exec_tryCatch, Prog.exec_bind_ok (exec_ask _ _ _ _)]
    exact ⟨_, rfl, rfl⟩
  obtain ⟨u, hread, husession⟩ := hread
  have hnow : ∃ v, (Veridex.DustExecution.nowS inputs.seams).exec u = (.ok 0, v) ∧
      v.session = u.session := by
    unfold Veridex.DustExecution.nowS
    rw [hopen.seams, exec_ask]
    exact ⟨_, rfl, rfl⟩
  obtain ⟨v, hnow, hvsession⟩ := hnow
  have hsubmit : submitBlockReason inputs gates none quote 0 v.session = none := by
    unfold submitBlockReason checkCanSubmit
    simp only [Option.orElse_eq_none]
    refine ⟨evaluateSubmitGate_none.mpr ⟨rfl, rfl, ⟨_, _, rfl, rfl, rfl, rfl⟩, ?_⟩, ?_,
      hgates.authorization, hgates.lossCap, trivial⟩
    · simp [quote, OpenVenue.quote]
    · simp [hvsession, husession, hsession]
  unfold decideAndSubmit
  rw [hpre]
  simp only
  rw [Prog.exec_bind_ok hread]
  simp only
  rw [Prog.exec_bind_ok hnow, Prog.exec_bind_ok Prog.exec_get]
  simp only [hsubmit]
  exact dispatchIntent_open hopen horderable.2

theorem RunGates.AllOpen.genuine (h : gates.AllOpen) : gates.Genuine where
  arming := by simp [h.arming]
  authorization := by simp [h.authorization]
  lossCap := by simp [h.lossCap]
  intent := by simp [h.intent]

/-- Another token than the target is passed over. -/
theorem decideAndSubmit_mismatch {orderCap : Option AbstainReason} (hgates : gates.AllOpen)
    (henforce : gates.enforceIntentToken = true) (hne : gates.intentTargetToken ≠ some tokenId) :
    (decideAndSubmit inputs gates orderCap tokenId).exec w =
      (.ok (abstain tokenId .intentTokenMismatch, []), w) := by
  have hpre : preQuoteBlockReason inputs gates tokenId = some .intentTokenMismatch := by
    unfold preQuoteBlockReason
    rw [hgates.intent, if_pos ⟨henforce, Ne.symm hne⟩]
    rfl
  unfold decideAndSubmit
  rw [hpre]
  rfl

/-- **The loop in an open venue** places an order for each occurrence of its target, as long as no
cap blocks it. -/
theorem runTokens_open (hopen : OpenRun inputs) (hgates : gates.AllOpen)
    (henforce : gates.enforceIntentToken = true) (htarget : gates.intentTargetToken = some tokenId)
    (hbuilds : Builds inputs gates.intent gates.intentParams gates.wireSize tokenId) :
    ∀ {tokenIds : List String} {ordersThisRun n : ℕ} {w w' : World}
      {r : Except PyExc (List SubmitDecision × List LifecycleEvent)} {new : List Call},
      (∀ i < n, inputs.orderCap (ordersThisRun + i) = none) → n ≤ tokenIds.count tokenId →
      w.session.submitBlocked = false →
      (runTokens inputs gates tokenIds ordersThisRun).exec w = (r, w') →
      w'.history = w.history ++ new → n ≤ placedIn new := by
  intro tokenIds
  induction tokenIds with
  | nil =>
    intro ordersThisRun n w w' r new _ hn _ _ _
    simp only [List.count_nil, Nat.le_zero] at hn
    omega
  | cons first tokenIds ih =>
    intro ordersThisRun n w w' r new hcaps hn hsession h hnew
    -- the rest of the loop, after the calls of the first token
    have hrest {decision : SubmitDecision} {tokenEvents : List LifecycleEvent} {u : World}
        {calls : List Call} {m : ℕ}
        (hfirst : (decideAndSubmit inputs gates (inputs.orderCap ordersThisRun) first).exec w =
          (.ok (decision, tokenEvents), u)) (hu : u.history = w.history ++ calls)
        (husession : SessionKept w u) (hm : m ≤ tokenIds.count tokenId)
        (hbelow : ∀ i < m, inputs.orderCap
          ((if decisionPlaced decision then ordersThisRun + 1 else ordersThisRun) + i) = none) :
        m + placedIn calls ≤ placedIn new := by
      have htail {s : Except PyExc (List SubmitDecision × List LifecycleEvent)} {v : World}
          (hrun : (runTokens inputs gates tokenIds
            (if decisionPlaced decision then ordersThisRun + 1 else ordersThisRun)).exec u =
              (s, v)) (hv : v = w') : m + placedIn calls ≤ placedIn new := by
        subst hv
        obtain ⟨-, rest, hrest, -⟩ := runTokens_live hopen.live hgates.genuine hrun
        obtain rfl : new = calls ++ rest := by
          rw [hrest, hu, List.append_assoc] at hnew
          exact (List.append_cancel_left hnew).symm
        have hopenSession : u.session.submitBlocked = false := by
          rw [husession]
          exact hsession
        have := ih hbelow hm hopenSession hrun hrest
        rw [placedIn_append]
        omega
      unfold runTokens at h
      rw [Prog.exec_bind_ok hfirst] at h
      obtain ⟨e, hrun, rfl⟩ | ⟨⟨decisions, events⟩, v, hrun, h⟩ := Prog.exec_bind_cases h
      · exact htail hrun rfl
      · exact htail hrun (Prod.mk.inj h).2
    by_cases hfirst : first = tokenId
    · subst hfirst
      cases n with
      | zero => exact Nat.zero_le _
      | succ n =>
        have hcap : inputs.orderCap ordersThisRun = none := hcaps 0 (Nat.succ_pos n)
        obtain ⟨⟨decision, tokenEvents⟩, u, hrun, hplaced⟩ :=
          decideAndSubmit_open hopen hgates hsession ⟨fun _ => htarget, hbuilds⟩
        rw [← hcap] at hrun
        obtain ⟨hkept, calls, hcalls, -, -, hcounts⟩ :=
          (decideAndSubmit_live hopen.live hgates.genuine (orderCap_ne _) hrun).calls
        have hone : placedIn calls = 1 := by
          rw [(hcounts _ rfl).1, if_pos hplaced]
        have hcount : n ≤ tokenIds.count first := by
          rw [List.count_cons_self] at hn
          omega
        have := hrest hrun hcalls hkept hcount fun i hi => by
          rw [if_pos hplaced, Nat.add_assoc, Nat.add_comm 1 i]
          exact hcaps (i + 1) (by omega)
        omega
    · have hrun : (decideAndSubmit inputs gates (inputs.orderCap ordersThisRun) first).exec w = _ :=
        decideAndSubmit_mismatch hgates henforce (by
          rw [htarget]
          exact fun heq => hfirst (Option.some.inj heq).symm)
      rw [List.count_cons_of_ne hfirst] at hn
      have := hrest hrun (List.append_nil _).symm (Std.Refl.refl _) hn fun i hi => by
        rw [decisionPlaced_abstain _ (by simp)]
        exact hcaps i hi
      omega

end OpenRun

/-! ## A run and a call in an open venue -/

section OpenCall

variable {inputs : RunInputs} {gates : RunGates} {w : World}

theorem capBreached_zero (cap : PyFloat) : capBreached cap 0 = false := by
  cases cap with
  | fin q =>
    rw [Bool.eq_false_iff, ne_eq, capBreached_fin]
    rintro ⟨hpos, hle⟩
    exact absurd hpos (by simpa using hle)
  | nan | negInf | posInf => rfl

/-- What a run in an open venue must be given to reach its loop: nothing to stop it, a bundle that
arms, and a request whose order builds. -/
structure OpenStart (inputs : RunInputs) (request : MMExecutionToolRequest) (tokenId : String) :
    Prop extends OpenRun inputs where
  meta_built : ∃ maxOrders, (Value.int inputs.manifest.maxOrders).toFloat = .ok maxOrders
  session : inputs.session = none
  fills : inputs.realizedFills = []
  breaker : inputs.breaker = none
  kill_switch : inputs.envelope.killSwitch = false
  loss_session : inputs.startRisk.realizedLossSession = 0
  loss_day : inputs.startRisk.realizedLossDay = 0
  arms : ∀ w, ∃ w', (armingBlockReason inputs inputs.startSession.sessionId).exec w = (.ok none, w')
  requested : inputs.request = some request
  pins : inputs.DeclaresPins request
  intent : PlacesOrder inputs request
  target : request.intentParams.tokenId = some tokenId
  built : ∃ wireSize, resolveWireSize inputs.manifest inputs.envelope inputs.walletEquityAtDecision
    inputs.fixedFraction = .ok wireSize ∧
    Builds inputs request.intentKind request.intentParams wireSize tokenId

variable {request : MMExecutionToolRequest} {tokenId : String}

/-- No trigger fires. -/
theorem applySafetyTriggers_open (h : OpenStart inputs request tokenId) (risk : RiskAccumulator) :
    (applySafetyTriggers inputs risk).exec w = (.ok risk, w) := by
  have hbreaker : inputs.breakerOpen = false := by simp [RunInputs.breakerOpen, h.breaker]
  unfold applySafetyTriggers foldRealizedFills trigger
  simp only [h.fills, hbreaker, h.kill_switch, Bool.false_eq_true, if_false]
  rfl

/-- Every gate is open. -/
theorem decideGates_open (h : OpenStart inputs request tokenId) :
    ∃ gates w', (decideGates inputs inputs.startRisk (buildAdmission inputs inputs.startRisk
        inputs.startSession.sessionId)).exec w = (.ok gates, w') ∧ gates.AllOpen ∧
      gates.enforceIntentToken = true ∧ gates.intentTargetToken = some tokenId ∧
      Builds inputs gates.intent gates.intentParams gates.wireSize tokenId := by
  obtain ⟨wireSize, hsize, hbuilds⟩ := h.built
  obtain ⟨u, harms⟩ := h.arms w
  have hbreaker : inputs.breakerOpen = false := by simp [RunInputs.breakerOpen, h.breaker]
  have hintent : intentBlockReason inputs.request inputs.manifest = none :=
    intentBlockReason_none.mpr fun r hr => by
      obtain rfl := Option.some.inj (h.requested.symm.trans hr)
      exact h.intent
  have hadmitted : (buildAdmission inputs inputs.startRisk
      inputs.startSession.sessionId).verdict = .allow := by
    simp [buildAdmission, StrategyAuthorizationDecision.evaluate,
      StrategyAuthorizationDecision.denials, h.loss_session, h.loss_day, capBreached_zero, hbreaker,
      h.kill_switch]
  have hauthorized : authorizationBlockReason inputs (buildAdmission inputs inputs.startRisk
      inputs.startSession.sessionId) = none :=
    authorizationBlockReason_none.mpr ⟨fun r hr => by
      obtain rfl := Option.some.inj (h.requested.symm.trans hr)
      exact h.pins, hadmitted⟩
  have hlosses : lossCapBlockReason inputs.startRisk inputs.envelope inputs.manifest = none := by
    refine lossCapBlockReason_none.mpr ⟨?_, ?_, ?_, ?_⟩
    · rw [h.loss_session, capBreached_zero]
    · rw [h.loss_session, capBreached_zero]
    · rw [h.loss_day, capBreached_zero]
    · rw [h.loss_day, capBreached_zero]
  unfold decideGates
  rw [Prog.exec_bind_ok harms]
  simp only [hauthorized, hlosses, hintent]
  rw [hsize, Prog.exec_bind_ok (Prog.exec_ofExcept _)]
  refine ⟨_, u, rfl, ⟨rfl, rfl, rfl, rfl⟩, ?_, ?_, ?_⟩
  · simp [h.requested]
  · simp [h.requested, effectiveIntent, h.target]
  · simpa [h.requested, effectiveIntent] using hbuilds

/-- The book is empty, and nothing is swept. -/
theorem openRun_open (h : OpenStart inputs request tokenId) (hgates : gates.AllOpen) :
    ∃ event w', (openRun inputs inputs.startRisk gates).exec w = (.ok event, w') ∧
      SessionKept w w' := by
  let t : World := { w with nextSeq := w.nextSeq + 1 }
  have hnow : (nowS inputs.seams).exec t = (.ok 0, t.record (.now (.ok 0))) := by
    rw [nowS, h.seams]
    exact exec_ask _ _ _ _
  have hread (u : World) : (readStartupOpenOrders inputs.seams.adapter).exec u =
      (.ok (some []), u.record (.getOrders (.ok (.list [])))) := by
    rw [h.seams]
    rfl
  have hsweep (enforce : Bool) (u : World) : (startupOpenOrderSweep inputs.seams enforce).exec u =
      (.ok 0, u.record (.getOrders (.ok (.list [])))) := by
    unfold startupOpenOrderSweep trigger
    rw [Prog.exec_bind_ok (hread u)]
    simp
  unfold openRun trigger
  rw [Prog.exec_bind_ok (exec_nextSeq w), Prog.exec_bind_ok hnow]
  simp only
  rw [Prog.exec_bind_ok (hsweep _ _), hgates.intent]
  simp only [reduceCtorEq, decide_false, Bool.false_and, Bool.false_eq_true, if_false]
  refine ⟨_, _, rfl, ?_⟩
  rfl

/-- **A run in an open venue** places as many orders as its target has occurrences, as long as no
cap blocks one. -/
theorem runDustExecution_open (h : OpenStart inputs request tokenId) {n : ℕ} {w' : World}
    {r : Except PyExc DustExecutionResult} {own : List Call}
    (hcaps : ∀ i < n, inputs.orderCap i = none)
    (hn : n ≤ inputs.manifest.tokenUniverse.count tokenId)
    (hrun : (runDustExecution inputs).exec w = (r, w'))
    (hown : w'.history = w.history ++ own) : n ≤ placedIn own := by
  obtain ⟨sessionMeta, hmeta⟩ := exists_buildSessionMeta.mpr h.meta_built
  let start : World := { w with session := inputs.startSession, nextSeq := 1 }
  obtain ⟨gates, u, hdecide, hgates, henforce, htarget, hbuilds⟩ := decideGates_open (w := start) h
  obtain ⟨event, v, hopen, hkept⟩ := openRun_open (w := u) h hgates
  have husession : SessionKept start u := ((quiet_decideGates _).of_exec hdecide).2
  have hsession : v.session.submitBlocked = false := by
    rw [hkept, husession]
    simp [start, RunInputs.startSession, h.session]
  obtain ⟨opening, hopening, -⟩ := Harmless.calls (IsTrans.trans _ _ _
    ((quiet_decideGates _).of_exec hdecide).harmless (harmless_openRun.of_exec hopen))
  unfold runDustExecution at hrun
  rw [hmeta, Prog.exec_bind_ok (Prog.exec_ofExcept _), startRun,
    Prog.exec_bind_ok (Prog.exec_modify _), Prog.exec_bind_ok (applySafetyTriggers_open h _)] at hrun
  simp only at hrun
  rw [Prog.exec_bind_ok hdecide, Prog.exec_bind_ok hopen] at hrun
  -- the orders of the loop are among those of the run
  have hloop {s : Except PyExc (List SubmitDecision × List LifecycleEvent)} {x : World}
      {closing : List Call}
      (hloop : (runTokens inputs gates inputs.manifest.tokenUniverse 0).exec v = (s, x))
      (hx : w'.history = x.history ++ closing) : n ≤ placedIn own := by
    obtain ⟨-, new, hnew, -⟩ := runTokens_live h.live hgates.genuine hloop
    have hhistory : w'.history = w.history ++ (opening ++ (new ++ closing)) := by
      rw [hx, hnew, hopening, List.append_assoc, List.append_assoc]
    have hle : n ≤ placedIn new := runTokens_open h.toOpenRun hgates henforce htarget hbuilds
      (fun i hi => (zero_add i).symm ▸ hcaps i hi) hn hsession hloop hnew
    rw [List.append_cancel_left (hown.symm.trans hhistory)]
    simp only [placedIn_append]
    omega
  obtain ⟨e, hfail, rfl⟩ | ⟨⟨decisions, events⟩, x, hfinish, hrun⟩ := Prog.exec_bind_cases hrun
  · exact hloop hfail (List.append_nil _).symm
  obtain ⟨e, hclose, rfl⟩ | ⟨⟨label, shutdown⟩, y, hclose, hrun⟩ := Prog.exec_bind_cases hrun
  · obtain ⟨closing, hclosing, -⟩ := (harmless_closeRun.of_exec hclose).calls
    exact hloop hfinish hclosing
  · obtain ⟨closing, hclosing, -⟩ := (harmless_closeRun.of_exec hclose).calls
    obtain ⟨-, rfl⟩ := Prod.mk.inj hrun
    exact hloop hfinish hclosing

end OpenCall

/-- The same request under the same manifest, envelope and size inputs; the venue, the clock, the
quotes, the custody, the interlock and the sink may be others. -/
structure ProposeInputs.SameCall (inputs inputs' : ProposeInputs) : Prop where
  request : inputs'.request = inputs.request
  digests : inputs'.digests = inputs.digests
  envelope : inputs'.envelope = inputs.envelope
  manifest : inputs'.manifest = inputs.manifest
  equity : inputs'.walletEquityAtDecision = inputs.walletEquityAtDecision
  fraction : inputs'.fixedFraction = inputs.fixedFraction

/-- The call places at most `n` orders. -/
def ProposeInputs.PlacesAtMost (inputs : ProposeInputs) (w : FacadeWorld) (n : ℕ) : Prop :=
  ∃ own, ((proposeMMExecution inputs).exec w).2.lane.history = w.lane.history ++ own ∧
    placedIn own ≤ n

section Call

variable {inputs inputs' : ProposeInputs}

/-- What is allowed is read off the request, the manifest, the envelope and the size inputs. -/
theorem ProposeInputs.AllowsOrder.of_same (h : inputs.SameCall inputs') (hallows : inputs'.AllowsOrder) :
    inputs.AllowsOrder := by
  obtain ⟨hrequest, hdigests, henvelope, hmanifest, hequity, hfraction⟩ := h
  obtain ⟨hlive, hidentity, hsession, hdaily, hmeta, hcustody, ⟨hpin, hpin', hpin''⟩, hkill,
    ⟨hpermitted, hnoQuote, hcancelAll⟩, tokenId, htoken, wireSize, hsize, hbuilds⟩ := hallows
  rw [hrequest] at hlive hidentity hnoQuote hcancelAll htoken hbuilds
  rw [henvelope] at hsession hdaily hkill
  rw [hmanifest] at hmeta
  rw [hdigests, hmanifest] at hcustody
  rw [hmanifest, henvelope, hequity, hfraction] at hsize
  simp only [ProposeInputs.runInputs, hrequest, hdigests, henvelope, hmanifest]
    at hpin hpin' hpin'' hpermitted
  have hmanifest' : (inputs.runInputs none none).manifest = (inputs'.runInputs none none).manifest :=
    hmanifest.symm
  exact ⟨hlive, hidentity, hsession, hdaily, hmeta, hcustody, ⟨hpin, hpin', hpin''⟩, hkill,
    ⟨hpermitted, hnoQuote, hcancelAll⟩, tokenId, htoken, wireSize, hsize,
    hbuilds.of_same hmanifest' rfl rfl⟩

/-- **At most one order**, in any venue, of a call that is allowed none, lists its target at most
once, or is capped at one. -/
theorem placesAtMost_one (h : inputs.SameCall inputs')
    (hbound : ¬ inputs.AllowsOrder ∨ inputs.targetCount ≤ 1 ∨ inputs.CapsOneOrder)
    (w : FacadeWorld) : inputs'.PlacesAtMost w 1 := by
  rcases hcall : (proposeMMExecution inputs').exec w with ⟨r, w'⟩
  unfold ProposeInputs.PlacesAtMost
  rw [hcall]
  have htarget : inputs'.targetCount = inputs.targetCount := by
    unfold ProposeInputs.targetCount
    rw [h.request, h.manifest]
  have hcaps : inputs'.CapsOneOrder ↔ inputs.CapsOneOrder := by
    unfold ProposeInputs.CapsOneOrder
    rw [h.envelope, h.manifest]
  rcases proposeMMExecution_ran hcall with ⟨new, hnew, hquiet⟩ |
    ⟨durableState, u, hadmission, ⟨arming, start, ran, ⟨pre, hpre, hquiet⟩, hran⟩, post, hpost,
      hquiet'⟩
  · exact ⟨new, hnew, by rw [placedIn_quiet hquiet]; omega⟩
  obtain ⟨own, hown, hle, hone, hallows⟩ := runInputs_placed hadmission hran
  refine ⟨pre ++ own ++ post, by rw [hpost, hown, hpre]; simp, ?_⟩
  simp only [placedIn_append, placedIn_quiet hquiet, placedIn_quiet hquiet', zero_add, add_zero]
  by_contra hmore
  rcases hbound with hnot | hcount | hcap
  · exact hnot ((hallows (by omega)).of_same h)
  · omega
  · exact hmore (hone (hcaps.mpr hcap))

/-- A new provider's state has no loss and no order. -/
theorem load_new (sessionId : String) (now : DateTime) :
    Provider.new.load sessionId now =
      .ok ⟨sessionId, .seeded sessionId 0 0 (some now.utcDay), 0, 0⟩ := by
  unfold Provider.load
  rw [Provider.netPnl_ok.mpr ⟨by simp [Provider.new], rfl⟩]
  rfl

/-- The run of an allowed call in an open venue, on the state a new provider loads. -/
theorem openStart_inOpenVenue (hallows : inputs.AllowsOrder) {binding : ExecutionWalletBinding}
    {policy : PrivyWalletPolicy} {quorum : AuthorizationQuorum} {tokenId : String}
    {state : DurableSessionState} {gate : OperatorInterlockGate} {today : Option ℤ}
    (hstate : state.risk = .seeded inputs.request.sessionId 0 0 today)
    (hgate : interlockEventsAreCanonical gate.events = true)
    (hpinned : executeWith inputs.digests inputs.manifest binding = .ok ())
    (hcustody : armModeB inputs.digests binding (some policy) (some quorum) = .ok ())
    (htoken : inputs.request.intentParams.tokenId = some tokenId)
    (hbuilt : ∃ wireSize, resolveWireSize inputs.manifest inputs.envelope
      inputs.walletEquityAtDecision inputs.fixedFraction = .ok wireSize ∧
      Builds (inputs.runInputs none none) inputs.request.intentKind inputs.request.intentParams
        wireSize tokenId) :
    OpenStart ((inputs.inOpenVenue binding policy quorum).runInputs (some state)
      (some (bindProof (OpenVenue.bundle binding policy quorum) gate "receipt"))) inputs.request
      tokenId := by
  generalize hbound : bindProof (OpenVenue.bundle binding policy quorum) gate "receipt" = bundle
  have htechnical : technicalBlockReason inputs.digests bundle inputs.manifest inputs.envelope
      (OpenVenue.seams inputs.envelope.maxQuoteAgeS).signer = none := by
    rw [← hbound]
    exact technicalBlockReason_none.mpr ⟨rfl, rfl, rfl, rfl,
      authorizeModeB_ok.mpr ⟨hallows.session_cap, hallows.daily_cap⟩, hpinned, hcustody, by
        simp [OpenVenue.seams], rfl, rfl⟩
  obtain ⟨hpin, hpin', hpin''⟩ := hallows.pins
  obtain ⟨hpermitted, hnoQuote, hcancelAll⟩ := hallows.intent
  obtain ⟨wireSize, hsize, hbuilds⟩ := hbuilt
  have hloss : (RiskAccumulator.seeded inputs.request.sessionId 0 0 today).realizedLossSession = 0 ∧
      (RiskAccumulator.seeded inputs.request.sessionId 0 0 today).realizedLossDay = 0 := by
    simp [RiskAccumulator.seeded, RiskAccumulator.realizedLossSession,
      RiskAccumulator.realizedLossDay]
  exact {
    live := hallows.live
    seams := rfl
    ownLegs := rfl
    tick := rfl
    bundled := ⟨bundle, rfl, by rw [← hbound]; rfl, by rw [← hbound]; rfl⟩
    meta_built := hallows.meta_built
    session := rfl
    fills := rfl
    breaker := rfl
    kill_switch := hallows.kill_switch
    loss_session := by
      refine Eq.trans (congrArg RiskAccumulator.realizedLossSession hstate) hloss.1
    loss_day := by
      refine Eq.trans (congrArg RiskAccumulator.realizedLossDay hstate) hloss.2
    arms := by
      intro w
      have hproof : bundle.operatorInterlock =
          some ⟨true, "receipt", gate.events, gate.operatorAuthRef⟩ := by
        rw [← hbound]
        rfl
      unfold armingBlockReason modeBArmingBlockReason
      simp only [ProposeInputs.runInputs, ProposeInputs.inOpenVenue, hallows.live, htechnical, hproof,
        hgate, Bool.not_true, Bool.false_eq_true, if_false]
      exact ⟨_, rfl⟩
    requested := rfl
    pins := ⟨hpin, hpin', hpin''⟩
    intent := ⟨hpermitted, hnoQuote, hcancelAll⟩
    target := htoken
    built := ⟨wireSize, hsize, hbuilds.of_same rfl rfl rfl⟩ }

/-- **Two orders**, in an open venue, of a call that is allowed one, lists its target twice and is not
capped at one. -/
theorem placesTwo (hallows : inputs.AllowsOrder) (hcount : 1 < inputs.targetCount)
    (hcaps : ¬ inputs.CapsOneOrder) :
    ∃ inputs', inputs.SameCall inputs' ∧ ¬ inputs'.PlacesAtMost (ArmedCall.start .new) 1 := by
  obtain ⟨binding, policy, quorum, hpinned, hlive⟩ := hallows.custody
  obtain ⟨tokenId, htoken, wireSize, hsize, hbuilds⟩ := hallows.built
  obtain htoken : inputs.request.intentParams.tokenId = some tokenId := htoken
  let call := inputs.inOpenVenue binding policy quorum
  refine ⟨call, ⟨rfl, rfl, rfl, rfl, rfl, rfl⟩, ?_⟩
  rcases hcall : (proposeMMExecution call).exec (ArmedCall.start .new) with ⟨r, w'⟩
  have hcallLive : call.request.mode = .liveGuarded := hallows.live
  -- the call is admitted and takes a slot of the new provider
  have hdate : DateTime.fromTimestampMs (0 * 1000) = .ok ⟨0⟩ := rfl
  have hslot : SlotFree call .new ⟨0⟩ := by
    refine ⟨rfl, rfl, by simp [Provider.new], rfl, rfl, fun hpos => hpos, fun hpos => hpos, ?_⟩
    refine .inr ⟨(0, 0), Provider.netPnl_ok.mpr ⟨by simp [Provider.new], rfl⟩, ?_, ?_⟩
    · exact capBreached_zero _
    · exact capBreached_zero _
  have hadmitted : AdmittedAt call (ArmedCall.start .new) .new 0 ⟨0⟩ :=
    ⟨by simp [OpeningAccepted, call, ProposeInputs.inOpenVenue], rfl, hdate, hallows.identity,
      hallows.session_cap, hallows.daily_cap, hslot⟩
  rcases proposeMMExecution_cases hcallLive rfl hcall with ⟨-, hnot⟩ |
    ⟨now, date, state, u, hadmitted', hload, hulane, huprovider, hrest⟩
  · exact absurd hadmitted (hnot 0 ⟨0⟩)
  obtain rfl : 0 = now := Except.ok.inj (hadmitted.clock.symm.trans hadmitted'.clock)
  obtain rfl : (⟨0⟩ : DateTime) = date := Except.ok.inj (hdate.symm.trans hadmitted'.dated)
  have hstate := Except.ok.inj (hload.symm.trans (load_new _ _))
  have hrisk : state.risk = .seeded inputs.request.sessionId 0 0 (some (DateTime.utcDay ⟨0⟩)) := by
    rw [hstate]
    rfl
  subst hstate
  -- the interlock is satisfied and recorded
  let gate := evaluateOperatorInterlock (some ArmedCall.operatorInterlock) (0 * 1000)
  have hbound : InterlockBound call call.request.sessionId u.lane.history
      (some (bindProof (OpenVenue.bundle binding policy quorum) gate "receipt")) _ :=
    .recorded (OpenVenue.bundle binding policy quorum) 0 gate OpenVenue.interlockStore "receipt" rfl
      rfl rfl rfl rfl
  rcases runReserved_cases hcallLive huprovider hrest with ⟨-, hnone⟩ |
    ⟨arming, v, ran, hbound', ⟨pre, hpre, -⟩, hran, -⟩
  · exact absurd hbound (hnone _ _)
  obtain ⟨rfl, -⟩ := hbound.unique hbound'
  have hgate : interlockEventsAreCanonical gate.events = true := by
    change interlockEventsAreCanonical
      (evaluateOperatorInterlock (some ArmedCall.operatorInterlock) (0 * 1000)).events = true
    decide +kernel
  have hstart := openStart_inOpenVenue hallows hrisk hgate hpinned hlive htoken
    ⟨wireSize, hsize, hbuilds⟩
  obtain ⟨own, hown, -⟩ := runDustExecution_live hcallLive hran
  have htwo : 2 ≤ placedIn own := by
    refine runDustExecution_open hstart (fun i hi => orderCap_none.mpr ?_) ?_ hran hown
    · simp only [ProposeInputs.CapsOneOrder, not_or] at hcaps
      obtain ⟨hrun, hmanifest, hsession, hday⟩ := hcaps
      have hbelow {cap : ℤ} (hne : cap ≠ 1) (hpos : 0 < cap) : (i : ℤ) < cap := by omega
      have hbelow' {cap : ℤ} (hne : cap ≠ 1) (hpos : 0 < cap) : (0 : ℤ) + i < cap := by omega
      exact ⟨hbelow hrun, hbelow hmanifest, hbelow' hsession, hbelow' hday⟩
    · unfold ProposeInputs.targetCount at hcount
      rw [htoken] at hcount
      exact hcount
  rintro ⟨all, hall, hone⟩
  rw [hcall] at hall
  have hhistory : w'.lane.history =
      (ArmedCall.start .new).lane.history ++ ([.now (.ok 0)] ++ pre ++ own) := by
    rw [hown, hpre, hulane, World.record_history]
    simp
  rw [List.append_cancel_left (hall.symm.trans hhistory)] at hone
  simp only [placedIn_append] at hone
  omega

/-- **One order for one request.** In every venue, and on every provider, a call places at most one
order exactly when its request, manifest and envelope allow none, its manifest's universe lists the
target of the request at most once, or an order cap of its envelope or manifest is one. -/
theorem proposeMMExecution_once_iff (inputs : ProposeInputs) :
    (∀ inputs', inputs.SameCall inputs' → ∀ w, inputs'.PlacesAtMost w 1) ↔
      ¬ inputs.AllowsOrder ∨ inputs.targetCount ≤ 1 ∨ inputs.CapsOneOrder := by
  constructor
  · intro h
    by_contra hbound
    simp only [not_or, not_not, not_le] at hbound
    obtain ⟨hallows, hcount, hcaps⟩ := hbound
    obtain ⟨inputs', hsame, htwo⟩ := placesTwo hallows hcount hcaps
    exact htwo (h inputs' hsame _)
  · intro hbound inputs' hsame w
    exact placesAtMost_one hsame hbound w

end Call

/-! ## A repeated target on fixed inputs -/

/-- A `take` request for a token that its universe lists twice, capped at two orders. -/
def repeatedCall : ProposeInputs :=
  { ArmedCall.inputs .take with
    manifest := { ArmedRun.manifest ["take"] with
      tokenUniverse := ["token", "token"]
      tokenUniverse_nonempty := by simp
      maxOrders := 2 } }

/-- The one request places two orders for its token, under one reservation. -/
theorem proposeMMExecution_repeated : repeatedCall.request.intentKind = .take ∧
    orderedTokens ((proposeMMExecution repeatedCall).exec (ArmedCall.start .new)).2.lane.history =
      ["token", "token"] ∧
    (((proposeMMExecution repeatedCall).exec (ArmedCall.start .new)).2.provider.map fun provider =>
      provider.count "session") = some 1 ∧
    ¬ repeatedCall.PlacesAtMost (ArmedCall.start .new) 1 := by
  refine ⟨rfl, by decide +kernel, by decide +kernel, ?_⟩
  rintro ⟨own, hown, hone⟩
  have hplaced : placedIn
      ((proposeMMExecution repeatedCall).exec (ArmedCall.start .new)).2.lane.history = 2 := by
    decide +kernel
  have hnil : (ArmedCall.start .new).lane.history = [] := rfl
  rw [hnil, List.nil_append] at hown
  rw [hown] at hplaced
  omega

end Veridex.DustExecution
