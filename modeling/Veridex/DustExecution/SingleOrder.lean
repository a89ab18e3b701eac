import Veridex.DustExecution.FacadeRuns
import Veridex.DustExecution.RunStream

/-!
# One order for one request (`facade.py`, `runner.py`)

A request targets one token, and the runner walks the tokens of the manifest's universe. The universe
is any non-empty tuple, so it may list the target twice; the runner then dispatches the request's
intent once for each occurrence, under the one reservation of the call, until an order cap stops it.

Results: `placedIn_runTokens_le` (the loop), `proposeMMExecution_once_iff` (a call).
-/

namespace Veridex.DustExecution

open Veridex.Py Veridex.Policy Veridex.Lib

/-! ## The orders of a loop -/

/-- The intent's own parameters make an order for a token: a taker's side and time in force are
coherent; a maker's order passes its validators and crosses no leg of the runner, and a replacement
names the order it replaces. -/
def Builds (inputs : RunInputs) (intent : IntentKind) (params : MMIntentParams) (wireSize : ℚ)
    (tokenId : String) : Prop :=
  (intent = .take → (resolveTakerSideTif params).isSome = true) ∧
    (intent ≠ .take → ∃ resting,
      buildRestingOrder tokenId inputs.manifest params wireSize inputs.tickSize = some resting ∧
      nonCrossingGate ⟨resting.tokenId, resting.side.text, .fin resting.nativePrice, .proposed, none⟩
        inputs.ownLegs inputs.tickSize = .ok none) ∧
    (intent = .cancelReplace → ∃ replaces ∈ params.replacesClientOrderId, replaces ≠ "")

/-- Of a run the manifest, the tick and the runner's own legs are read. -/
theorem Builds.of_same {inputs inputs' : RunInputs} {intent : IntentKind} {params : MMIntentParams}
    {wireSize : ℚ} {tokenId : String} (hmanifest : inputs'.manifest = inputs.manifest)
    (htick : inputs'.tickSize = inputs.tickSize) (hlegs : inputs'.ownLegs = inputs.ownLegs)
    (h : Builds inputs intent params wireSize tokenId) :
    Builds inputs' intent params wireSize tokenId := by
  unfold Builds at h ⊢
  rw [hmanifest, htick, hlegs]
  exact h

/-- The loop can place an order for a token: it is the target, and its order can be built. -/
def Orderable (inputs : RunInputs) (gates : RunGates) (tokenId : String) : Prop :=
  (gates.enforceIntentToken = true → gates.intentTargetToken = some tokenId) ∧
    Builds inputs gates.intent gates.intentParams gates.wireSize tokenId

section Loop

variable {inputs : RunInputs} {gates : RunGates} {orderCap : Option AbstainReason}
  {tokenId : String} {quote : DustQuote} {nowS : ℤ}

/-- An order that crosses, or whose check raises, is not placed. -/
theorem keeps_unlessCrossing_of_ne {side : Side} {price : PyFloat} {proposed : String}
    {place : Lane (SubmitDecision × List LifecycleEvent)}
    (h : nonCrossingGate ⟨proposed, side.text, price, .proposed, none⟩ inputs.ownLegs
      inputs.tickSize ≠ .ok none) :
    Prog.Keeps Quiet (unlessCrossing inputs tokenId side price proposed place) := by
  intro w
  unfold unlessCrossing
  cases hgate : nonCrossingGate ⟨proposed, side.text, price, .proposed, none⟩ inputs.ownLegs
      inputs.tickSize with
  | error e =>
    rw [Prog.exec_bind_error (Prog.exec_ofExcept _)]
    exact Std.Refl.refl _
  | ok reason =>
    rw [Prog.exec_bind_ok (Prog.exec_ofExcept _)]
    cases reason with
    | none => exact absurd hgate h
    | some reason => exact Std.Refl.refl _

/-- An intent whose order cannot be built places none. -/
theorem quiet_dispatchIntent
    (h : ¬ Builds inputs gates.intent gates.intentParams gates.wireSize tokenId) :
    Prog.Keeps Quiet (dispatchIntent inputs gates tokenId quote nowS) := by
  unfold dispatchIntent
  by_cases htake : gates.intent = .take
  · rw [if_pos htake]
    unfold dispatchTake
    split
    · exact Prog.keeps_pure _
    · rename_i side tif hside
      refine absurd ⟨fun _ => by rw [hside]; rfl, fun hne => absurd htake hne, fun hreplace => ?_⟩ h
      simp [htake] at hreplace
  · rw [if_neg htake]
    unfold dispatchMaker
    cases hresting : buildRestingOrder tokenId inputs.manifest gates.intentParams gates.wireSize
        inputs.tickSize with
    | none => exact Prog.keeps_pure _
    | some resting =>
      by_cases hgate : nonCrossingGate
          ⟨resting.tokenId, resting.side.text, .fin resting.nativePrice, .proposed, none⟩
          inputs.ownLegs inputs.tickSize = .ok none
      · refine keeps_unlessCrossing ?_
        -- the one parameter left is the order to be replaced
        have hreplace : gates.intent = .cancelReplace ∧
            ¬ ∃ replaces ∈ gates.intentParams.replacesClientOrderId, replaces ≠ "" := by
          by_contra hnot
          refine h ⟨fun hc => absurd hc htake, fun _ => ⟨resting, hresting, hgate⟩, fun hreplace => ?_⟩
          by_contra hnone
          exact hnot ⟨hreplace, hnone⟩
        obtain ⟨hreplace, hnone⟩ := hreplace
        unfold emitMaker
        simp only [hreplace, if_true]
        cases hreplaces : gates.intentParams.replacesClientOrderId with
        | none => exact Prog.keeps_pure _
        | some replaces =>
          have hempty : replaces = "" := by
            by_contra hne
            exact hnone ⟨replaces, hreplaces, hne⟩
          simp only [hempty, if_true]
          exact Prog.keeps_pure _
      · exact keeps_unlessCrossing_of_ne hgate

/-- A token that is not orderable is left alone. -/
theorem quiet_decideAndSubmit (h : ¬ Orderable inputs gates tokenId) :
    Prog.Keeps Quiet (decideAndSubmit inputs gates orderCap tokenId) := by
  unfold decideAndSubmit
  cases hpre : preQuoteBlockReason inputs gates tokenId with
  | some reason => exact Prog.keeps_pure _
  | none =>
    have htarget : gates.enforceIntentToken = true → gates.intentTargetToken = some tokenId := by
      intro henforce
      unfold preQuoteBlockReason at hpre
      rw [Option.orElse_eq_none, Option.orElse_eq_none] at hpre
      by_contra hne
      simp [henforce, eq_comm, hne] at hpre
    refine Prog.keeps_bind (quiet_readQuote _ _) fun served => ?_
    cases served with
    | none => exact Prog.keeps_pure _
    | some quote =>
      refine Prog.keeps_bind (quiet_ask fun _ => rfl) fun now => ?_
      refine Prog.keeps_bind Prog.keeps_get fun w => ?_
      split
      · exact Prog.keeps_pure _
      · exact quiet_dispatchIntent fun hbuilds => h ⟨htarget, hbuilds⟩

open Classical in
/-- **At most one order for each orderable token of the universe.** -/
theorem placedIn_runTokens_le (hmode : inputs.mode = .liveGuarded) (hgates : gates.Genuine) :
    ∀ {tokenIds : List String} {ordersThisRun : ℕ} {w w' : World}
      {r : Except PyExc (List SubmitDecision × List LifecycleEvent)} {new : List Call},
      (runTokens inputs gates tokenIds ordersThisRun).exec w = (r, w') →
      w'.history = w.history ++ new →
      placedIn new ≤ tokenIds.countP fun tokenId => Orderable inputs gates tokenId := by
  intro tokenIds
  induction tokenIds with
  | nil =>
    intro ordersThisRun w w' r new h hnew
    obtain ⟨-, rfl⟩ := Prod.mk.inj h
    obtain rfl : new = [] := by simpa using hnew
    simp
  | cons tokenId tokenIds ih =>
    intro ordersThisRun w w' r new h hnew
    have hfirst {r : Except PyExc (SubmitDecision × List LifecycleEvent)} {u : World}
        (hrun : (decideAndSubmit inputs gates (inputs.orderCap ordersThisRun) tokenId).exec w =
          (r, u)) : ∃ first, u.history = w.history ++ first ∧
            placedIn first ≤ if Orderable inputs gates tokenId then 1 else 0 := by
      by_cases horderable : Orderable inputs gates tokenId
      · rw [if_pos horderable]
        rcases decideAndSubmit_live hmode hgates (orderCap_ne _) hrun with
          ⟨⟨⟨first, hfirst, hquiet⟩, -⟩, -⟩ | ⟨order, before, ⟨answer, after, hfirst, hbefore, hafter, -⟩, -⟩
        · exact ⟨first, hfirst, by simp [placedIn_quiet hquiet]⟩
        · exact ⟨_, hfirst, by simp [placedIn_quiet hbefore, placedIn_quiet hafter]⟩
      · rw [if_neg horderable]
        obtain ⟨⟨first, hfirst, hquiet⟩, -⟩ := (quiet_decideAndSubmit horderable).of_exec hrun
        exact ⟨first, hfirst, (placedIn_quiet hquiet).le⟩
    rw [List.countP_cons]
    simp only [decide_eq_true_eq]
    obtain ⟨e, hrun, rfl⟩ | ⟨⟨decision, tokenEvents⟩, u, hrun, h⟩ := Prog.exec_bind_cases h
    · obtain ⟨first, hfirst, hle⟩ := hfirst hrun
      obtain rfl := List.append_cancel_left (hnew.symm.trans hfirst)
      exact hle.trans (Nat.le_add_left _ _)
    obtain ⟨first, hfirst, hle⟩ := hfirst hrun
    have hrest {r : Except PyExc (List SubmitDecision × List LifecycleEvent)}
        (hrun : (runTokens inputs gates tokenIds
          (if decisionPlaced decision then ordersThisRun + 1 else ordersThisRun)).exec u = (r, w')) :
        placedIn new ≤ tokenIds.countP (fun tokenId => Orderable inputs gates tokenId) +
          if Orderable inputs gates tokenId then 1 else 0 := by
      obtain ⟨-, rest, hrest, -⟩ := runTokens_live hmode hgates hrun
      obtain rfl : new = first ++ rest := by
        rw [hrest, hfirst, List.append_assoc] at hnew
        exact (List.append_cancel_left hnew).symm
      have hle' := ih hrun hrest
      rw [placedIn_append]
      omega
    obtain ⟨e, htail, rfl⟩ | ⟨⟨decisions, events⟩, v, htail, h⟩ := Prog.exec_bind_cases h
    · exact hrest htail
    · obtain ⟨-, rfl⟩ := Prod.mk.inj h
      exact hrest htail

end Loop

/-! ## The orders of a call -/

/-- Neither an order nor a sweep is asked for. -/
def LaneQuiet (w w' : FacadeWorld) : Prop := Calls (fun call => call.isQuiet = true) w.lane w'.lane

instance : Std.Refl LaneQuiet := ⟨fun w => Std.Refl.refl w.lane⟩

instance : IsTrans FacadeWorld LaneQuiet :=
  ⟨fun w u w' h h' => IsTrans.trans w.lane u.lane w'.lane h h'⟩

/-- A call runs on a durable state that its admission let past, and asks for nothing but the clock
and the interlock's store around its run. -/
def RanOn (inputs : ProposeInputs) (w w' : FacadeWorld)
    (durableState : Option DurableSessionState) : Prop :=
  ∃ arming u ran, Calls (fun call => call.isQuiet = true) w.lane u ∧
    (runDustExecution (inputs.runInputs durableState arming)).exec u = (ran, w'.lane)

section Call

variable {inputs : ProposeInputs} {w w' : FacadeWorld} {durableState : Option DurableSessionState}

theorem Aside.laneQuiet (h : Aside w w') : LaneQuiet w w' := h.unreserved.1

theorem laneQuiet_inLane {α : Type} {m : Lane α} (h : Prog.Keeps Quiet m) :
    Prog.Keeps LaneQuiet (inLane m) := fun w => by
  rw [exec_inLane]
  exact (h w.lane).1

theorem laneQuiet_emit (payload : RuntimePayload) : Prog.Keeps LaneQuiet (emit inputs payload) :=
  (aside_emit payload).mono fun _ _ => Aside.laneQuiet

theorem laneQuiet_finish (result : MMExecutionToolResult) (sessionStatus : String) (count : ℕ) :
    Prog.Keeps LaneQuiet (finish inputs result sessionStatus count) :=
  (aside_finish result sessionStatus count).mono fun _ _ => Aside.laneQuiet

theorem laneQuiet_loadDurableState (now : DateTime) :
    Prog.Keeps LaneQuiet (loadDurableState inputs now) := by
  unfold loadDurableState
  refine Prog.keeps_bind Prog.keeps_get fun w => ?_
  split
  · exact Prog.keeps_pure _
  · refine Prog.keeps_bind (Prog.keeps_ofExcept _) fun _ => ?_
    exact Prog.keeps_bind (Prog.keeps_ofExcept _) fun _ => Prog.keeps_pure _

theorem laneQuiet_reserveAttempt (now : DateTime) (sessionIdentity : String) :
    Prog.Keeps LaneQuiet (reserveAttempt inputs now sessionIdentity) := by
  unfold reserveAttempt
  refine Prog.keeps_bind Prog.keeps_get fun w => ?_
  split
  · exact Prog.keeps_pure _
  · simp only
    split
    · split_ifs
      · exact Prog.keeps_pure _
      · exact Prog.keeps_throw _
    · refine Prog.keeps_bind (Prog.keeps_modify fun w => ?_) fun _ => Prog.keeps_pure _
      exact Std.Refl.refl w.lane

theorem laneQuiet_settleAttempt (result : DustExecutionResult) :
    Prog.Keeps LaneQuiet (settleAttempt inputs result) := by
  unfold settleAttempt
  refine Prog.keeps_bind Prog.keeps_get fun w => ?_
  split
  · exact Prog.keeps_pure _
  · split
    · split_ifs
      · exact Prog.keeps_pure _
      · exact Prog.keeps_throw _
    · exact Prog.keeps_modify fun w => Std.Refl.refl w.lane

theorem laneQuiet_effectiveArming (sessionIdentity : String) :
    Prog.Keeps LaneQuiet (effectiveArming inputs sessionIdentity) := by
  unfold effectiveArming
  split
  · exact Prog.keeps_pure _
  · split_ifs
    · refine Prog.keeps_bind (laneQuiet_inLane (quiet_ask fun _ => rfl)) fun now => ?_
      simp only
      split
      · exact Prog.keeps_pure _
      · exact Prog.keeps_bind (laneQuiet_inLane (quiet_ask fun _ => rfl)) fun _ => Prog.keeps_pure _
    · exact Prog.keeps_pure _

/-- The call from its reservation on runs once, or raises before. -/
theorem runReserved_ran {r : Except PyExc MMExecutionToolResult}
    (h : (runReserved inputs durableState).exec w = (r, w')) :
    LaneQuiet w w' ∨ ∃ u, RanOn inputs w u durableState ∧ LaneQuiet u w' := by
  unfold runReserved at h
  obtain ⟨e, harming, -⟩ | ⟨arming, t, harming, h⟩ := Prog.exec_bind_cases h
  · exact .inl ((laneQuiet_effectiveArming _).of_exec harming)
  have ht : LaneQuiet w t := (laneQuiet_effectiveArming _).of_exec harming
  obtain ⟨e, hran, -⟩ | ⟨result, u, hran, h⟩ := Prog.exec_bind_cases h
  · rw [exec_inLane] at hran
    obtain ⟨hraise, rfl⟩ := Prod.mk.inj hran
    exact .inr ⟨_, ⟨arming, t.lane, _, ht, Prod.ext hraise rfl⟩, Std.Refl.refl _⟩
  · rw [exec_inLane] at hran
    obtain ⟨hok, rfl⟩ := Prod.mk.inj hran
    refine .inr ⟨{ t with
      lane := ((runDustExecution (inputs.runInputs durableState arming)).exec t.lane).2 },
      ⟨arming, t.lane, _, ht, Prod.ext hok rfl⟩, ?_⟩
    have hrest : Prog.Keeps LaneQuiet (do
        settleAttempt inputs result
        finish inputs (toToolResult inputs.references result) result.sessionOutcome.status.text
          result.submittedCount) :=
      Prog.keeps_bind (laneQuiet_settleAttempt _) fun _ => laneQuiet_finish _ _ _
    exact hrest.of_exec h

/-- **A call runs at most once**, in any mode and on any provider. -/
theorem proposeMMExecution_ran {r : Except PyExc MMExecutionToolResult}
    (h : (proposeMMExecution inputs).exec w = (r, w')) :
    LaneQuiet w w' ∨ ∃ durableState u, admissionReturn inputs durableState = none ∧
      RanOn inputs w u durableState ∧ LaneQuiet u w' := by
  unfold proposeMMExecution at h
  obtain ⟨e, hemit, -⟩ | ⟨_, t, hemit, h⟩ := Prog.exec_bind_cases h
  · exact .inl ((laneQuiet_emit _).of_exec hemit)
  have ht : LaneQuiet w t := (laneQuiet_emit _).of_exec hemit
  obtain ⟨e, hemit, -⟩ | ⟨_, u, hemit, h⟩ := Prog.exec_bind_cases h
  · exact .inl (IsTrans.trans _ _ _ ht ((laneQuiet_emit _).of_exec hemit))
  have hu : LaneQuiet w u := IsTrans.trans _ _ _ ht ((laneQuiet_emit _).of_exec hemit)
  have hclock : Prog.Keeps LaneQuiet (inLane (nowS inputs.seams)) :=
    laneQuiet_inLane (quiet_ask fun _ => rfl)
  obtain ⟨e, hnow, -⟩ | ⟨now, v, hnow, h⟩ := Prog.exec_bind_cases h
  · exact .inl (IsTrans.trans _ _ _ hu (hclock.of_exec hnow))
  have hv : LaneQuiet w v := IsTrans.trans _ _ _ hu (hclock.of_exec hnow)
  obtain ⟨e, hdate, -⟩ | ⟨date, x, hdate, h⟩ := Prog.exec_bind_cases h
  · exact .inl (IsTrans.trans _ _ _ hv ((Prog.keeps_ofExcept _).of_exec hdate))
  have hx : LaneQuiet w x := IsTrans.trans _ _ _ hv ((Prog.keeps_ofExcept _).of_exec hdate)
  obtain ⟨e, hload, -⟩ | ⟨durableState, y, hload, h⟩ := Prog.exec_bind_cases h
  · exact .inl (IsTrans.trans _ _ _ hx ((laneQuiet_loadDurableState _).of_exec hload))
  have hy : LaneQuiet w y :=
    IsTrans.trans _ _ _ hx ((laneQuiet_loadDurableState _).of_exec hload)
  cases hadmission : admissionReturn inputs durableState with
  | some early =>
    rw [hadmission] at h
    exact .inl (IsTrans.trans _ _ _ hy ((laneQuiet_finish _ _ _).of_exec h))
  | none =>
    rw [hadmission] at h
    obtain ⟨e, hreserve, -⟩ | ⟨early, z, hreserve, h⟩ := Prog.exec_bind_cases h
    · exact .inl (IsTrans.trans _ _ _ hy ((laneQuiet_reserveAttempt _ _).of_exec hreserve))
    have hz : LaneQuiet w z :=
      IsTrans.trans _ _ _ hy ((laneQuiet_reserveAttempt _ _).of_exec hreserve)
    cases early with
    | some early => exact .inl (IsTrans.trans _ _ _ hz ((laneQuiet_finish _ _ _).of_exec h))
    | none =>
      rcases runReserved_ran h with hquiet | ⟨u', ⟨arming, start, ran, hstart, hran⟩, hquiet⟩
      · exact .inl (IsTrans.trans _ _ _ hz hquiet)
      · exact .inr ⟨durableState, u', hadmission, ⟨arming, start, ran,
          IsTrans.trans w.lane z.lane start hz hstart, hran⟩, hquiet⟩

end Call

/-! ## What the request, the manifest and the envelope allow -/

/-- The occurrences of the request's target in the universe. -/
def ProposeInputs.targetCount (inputs : ProposeInputs) : ℕ :=
  match inputs.request.intentParams.tokenId with
  | none => 0
  | some tokenId => inputs.manifest.tokenUniverse.count tokenId

/-- An order cap of the envelope or the manifest is one. -/
def ProposeInputs.CapsOneOrder (inputs : ProposeInputs) : Prop :=
  inputs.envelope.maxOrdersPerRun = 1 ∨ inputs.manifest.maxOrders = 1 ∨
    inputs.envelope.maxOrdersPerSession = 1 ∨ inputs.envelope.maxOrdersPerDay = 1

/-- **The request, the manifest and the envelope allow an order**: a live request of a named session,
under finite positive loss caps and no kill switch, that declares the hashes of the run, whose intent
is permitted and can be built at the resolved size, with a manifest that some wallet's custody
matches. -/
structure ProposeInputs.AllowsOrder (inputs : ProposeInputs) : Prop where
  live : inputs.request.mode = .liveGuarded
  identity : inputs.request.sessionId ≠ ""
  session_cap : FinitePositive inputs.envelope.maxSessionLoss
  daily_cap : FinitePositive inputs.envelope.maxDailyLoss
  /-- The number of orders is within the range of a `float`. -/
  meta_built : ∃ maxOrders, (Value.int inputs.manifest.maxOrders).toFloat = .ok maxOrders
  custody : ∃ binding policy quorum, executeWith inputs.digests inputs.manifest binding = .ok () ∧
    armModeB inputs.digests binding (some policy) (some quorum) = .ok ()
  pins : (inputs.runInputs none none).DeclaresPins inputs.request
  kill_switch : inputs.envelope.killSwitch = false
  intent : PlacesOrder (inputs.runInputs none none) inputs.request
  built : ∃ tokenId ∈ inputs.request.intentParams.tokenId, ∃ wireSize,
    resolveWireSize inputs.manifest inputs.envelope inputs.walletEquityAtDecision
      inputs.fixedFraction = .ok wireSize ∧
    Builds (inputs.runInputs none none) inputs.request.intentKind inputs.request.intentParams wireSize
      tokenId

section Bound

/-- **A live run's orders are those of its loop**, under the gates it decided. -/
theorem runDustExecution_loop {inputs : RunInputs} {w w' : World}
    {r : Except PyExc DustExecutionResult} {own : List Call} (hmode : inputs.mode = .liveGuarded)
    (h : (runDustExecution inputs).exec w = (r, w')) (hown : w'.history = w.history ++ own) :
    placedIn own = 0 ∨ ∃ sessionMeta risk gates u v loop new,
      buildSessionMeta inputs = .ok sessionMeta ∧
      Decided inputs risk (buildAdmission inputs risk inputs.startSession.sessionId) gates ∧
      (runTokens inputs gates inputs.manifest.tokenUniverse 0).exec u = (loop, v) ∧
      v.history = u.history ++ new ∧ placedIn own = placedIn new := by
  have hnone {u : World} {new : List Call} (hu : w'.history = u.history ++ new)
      (hpre : u.history = w.history) (hplaced : placedIn new = 0) : placedIn own = 0 := by
    rw [hu, hpre] at hown
    rwa [← List.append_cancel_left hown]
  unfold runDustExecution at h
  obtain ⟨e, -, rfl, rfl⟩ | ⟨sessionMeta, hmeta, h⟩ := Prog.exec_ofExcept_cases h
  · exact .inl (hnone (List.append_nil _).symm rfl rfl)
  let start : World := { w with session := inputs.startSession, nextSeq := 1 }
  rw [startRun, Prog.exec_bind_ok (Prog.exec_modify _)] at h
  obtain ⟨e, htriggers, rfl⟩ | ⟨risk, t, htriggers, h⟩ := Prog.exec_bind_cases h
  · obtain ⟨new, hnew, hplaced⟩ := ((harmless_applySafetyTriggers _).of_exec htriggers).calls
    exact .inl (hnone (u := start) hnew rfl hplaced)
  have ht : Harmless start t := (harmless_applySafetyTriggers _).of_exec htriggers
  obtain ⟨e, hdecide, rfl⟩ | ⟨gates, u, hdecide, h⟩ := Prog.exec_bind_cases h
  · obtain ⟨new, hnew, hplaced⟩ := Harmless.calls
      (IsTrans.trans _ _ _ ht ((quiet_decideGates _).of_exec hdecide).harmless)
    exact .inl (hnone (u := start) hnew rfl hplaced)
  have hu : Harmless start u :=
    IsTrans.trans _ _ _ ht ((quiet_decideGates _).of_exec hdecide).harmless
  obtain ⟨e, hopen, rfl⟩ | ⟨snapshot, v, hopen, h⟩ := Prog.exec_bind_cases h
  · obtain ⟨new, hnew, hplaced⟩ :=
      Harmless.calls (IsTrans.trans _ _ _ hu (harmless_openRun.of_exec hopen))
    exact .inl (hnone (u := start) hnew rfl hplaced)
  obtain ⟨opening, hopening, hopened⟩ :=
    Harmless.calls (IsTrans.trans _ _ _ hu (harmless_openRun.of_exec hopen))
  obtain ⟨hdecided, -⟩ := decideGates_ok hdecide
  -- the orders before and after the loop are none
  suffices hloop : ∃ loop x closing,
      (runTokens inputs gates inputs.manifest.tokenUniverse 0).exec v = (loop, x) ∧
      w'.history = x.history ++ closing ∧ placedIn closing = 0 by
    obtain ⟨loop, x, closing, hrun, hclosing, hclosed⟩ := hloop
    obtain ⟨-, new, hnew, -⟩ := runTokens_live hmode hdecided.genuine hrun
    refine .inr ⟨sessionMeta, risk, gates, v, x, loop, new, hmeta, hdecided, hrun, hnew, ?_⟩
    have hhistory : w'.history = w.history ++ (opening ++ (new ++ closing)) := by
      rw [hclosing, hnew, hopening, List.append_assoc, List.append_assoc]
    rw [List.append_cancel_left (hown.symm.trans hhistory)]
    simp [hopened, hclosed]
  obtain ⟨e, hrun, rfl⟩ | ⟨⟨decisions, tokenEvents⟩, x, hrun, h⟩ := Prog.exec_bind_cases h
  · exact ⟨_, _, _, hrun, (List.append_nil _).symm, rfl⟩
  obtain ⟨e, hclose, rfl⟩ | ⟨⟨label, shutdownDecision⟩, y, hclose, h⟩ := Prog.exec_bind_cases h
  · obtain ⟨closing, hclosing, hclosed⟩ := (harmless_closeRun.of_exec hclose).calls
    exact ⟨_, _, _, hrun, hclosing, hclosed⟩
  · obtain ⟨closing, hclosing, hclosed⟩ := (harmless_closeRun.of_exec hclose).calls
    obtain ⟨-, rfl⟩ := Prod.mk.inj h
    exact ⟨_, _, _, hrun, hclosing, hclosed⟩

variable {inputs : ProposeInputs} {durableState : Option DurableSessionState}
  {arming : Option ModeBArming} {w w' : World} {r : Except PyExc DustExecutionResult}
  {own : List Call}

/-- The target's orders are one for each of its occurrences. -/
theorem countP_orderable_le {gates : RunGates} {risk : RiskAccumulator}
    {admission : StrategyAuthorizationDecision}
    (hdecided : Decided (inputs.runInputs durableState arming) risk admission gates)
    (hopen : gates.intentBlockReason = none) [DecidablePred
      (Orderable (inputs.runInputs durableState arming) gates)] :
    inputs.manifest.tokenUniverse.countP
      (fun tokenId => Orderable (inputs.runInputs durableState arming) gates tokenId) ≤
        inputs.targetCount := by
  have htarget {tokenId : String}
      (h : Orderable (inputs.runInputs durableState arming) gates tokenId) :
      inputs.request.intentParams.tokenId = some tokenId :=
    hdecided.target_token hopen h.1 inputs.request rfl
  unfold ProposeInputs.targetCount
  cases htoken : inputs.request.intentParams.tokenId with
  | none =>
    rw [Nat.le_zero, List.countP_eq_zero]
    intro tokenId _ horderable
    simp [htarget (of_decide_eq_true horderable)] at htoken
  | some target =>
    refine List.countP_mono_left fun tokenId _ horderable => ?_
    have := htarget (of_decide_eq_true horderable)
    rw [htoken] at this
    simp [Option.some.inj this]

/-- A live call that its admission let past is for a named session. -/
theorem admissionReturn_live (hlive : inputs.request.mode = .liveGuarded)
    (h : admissionReturn inputs durableState = none) : inputs.request.sessionId ≠ "" := by
  unfold admissionReturn at h
  cases durableState with
  | none => simp [hlive] at h
  | some state =>
    simp only [reduceCtorEq, and_false, if_false, Option.any_some] at h
    split_ifs at h with hmismatch
    simp only [identityMismatch, Bool.or_eq_true, decide_eq_true_eq, not_or, ne_eq, not_not]
      at hmismatch
    obtain ⟨⟨hempty, hsame⟩, -⟩ := hmismatch
    rwa [hsame] at hempty

theorem runInputs_prior : 0 ≤ (inputs.runInputs durableState arming).priorSessionOrderCount ∧
    0 ≤ (inputs.runInputs durableState arming).priorDayOrderCount := by
  cases durableState <;> simp [ProposeInputs.runInputs]

/-- **The order after `n` orders** of a run passed every gate, with `n` orders counted. -/
theorem runInputs_order {n : ℕ}
    (hpasses : OrdersPass (PassedEveryGate (inputs.runInputs durableState arming)) own)
    (hn : n < placedIn own) : ∃ loop order bundle proof risk, placedIn loop = n ∧
      Armed inputs.digests inputs.manifest inputs.envelope inputs.seams.signer bundle proof ∧
      SessionPassed (inputs.runInputs durableState arming) risk ∧
      OrderPassed (inputs.runInputs durableState arming) loop order := by
  obtain ⟨pre, call, post, hsplit, hsubmit, hpre⟩ := exists_entry_after hn
  cases call with
  | submitOrder order answer =>
    obtain ⟨bundle, proof, now, loop, risk, -, harmed, hbefore, hsession, hpassed⟩ :=
      hpasses pre _ post hsplit order answer rfl
    have hloop : pre.countP Call.isSubmit = placedIn loop := by
      rw [hbefore]
      simp [placedIn, Call.isSubmit]
    exact ⟨loop, order, bundle, proof, risk, hloop.symm.trans hpre, harmed, hsession, hpassed⟩
  | _ => simp [Call.isSubmit] at hsubmit

/-- A run that places an order was allowed to, and placed at most one for each occurrence of its
target. -/
theorem runInputs_first (hmode : inputs.request.mode = .liveGuarded)
    (hadmission : admissionReturn inputs durableState = none)
    (h : (runDustExecution (inputs.runInputs durableState arming)).exec w = (r, w'))
    (hown : w'.history = w.history ++ own)
    (hpasses : OrdersPass (PassedEveryGate (inputs.runInputs durableState arming)) own)
    (hpos : 0 < placedIn own) : placedIn own ≤ inputs.targetCount ∧ inputs.AllowsOrder := by
  classical
  obtain ⟨loop, order, bundle, proof, risk, -, harmed, hsession, hpassed⟩ :=
    runInputs_order hpasses hpos
  rcases runDustExecution_loop hmode h hown with hnone |
    ⟨sessionMeta, risk', gates, u, v, loop', new, hmeta, hdecided, hrun, hnew, hplaced⟩
  · omega
  have hopen : gates.intentBlockReason = none :=
    hdecided.intent.trans (intentBlockReason_none.mpr hsession.intent)
  have hle : placedIn new ≤ inputs.manifest.tokenUniverse.countP
      (fun tokenId => Orderable (inputs.runInputs durableState arming) gates tokenId) :=
    placedIn_runTokens_le hmode hdecided.genuine hrun hnew
  have htarget := countP_orderable_le hdecided hopen
  obtain ⟨tokenId, -, horderable⟩ :=
    List.countP_pos_iff.mp ((hplaced ▸ hpos : 0 < placedIn new).trans_le hle)
  obtain ⟨htargets, hbuilds⟩ := of_decide_eq_true horderable
  have heffective : (inputs.request.intentKind, inputs.request.intentParams) =
      (gates.intent, gates.intentParams) := hdecided.effective
  obtain ⟨hkind, hparams⟩ := Prod.mk.inj heffective
  obtain ⟨hmanifestPin, hpolicyPin, hconfigPin⟩ := hsession.pins inputs.request rfl
  obtain ⟨hpermitted, hnoQuote, hcancelAll⟩ := hsession.intent inputs.request rfl
  have htoken : inputs.request.intentParams.tokenId = some tokenId :=
    hdecided.target_token hopen htargets inputs.request rfl
  have hbuilt : Builds (inputs.runInputs none none) inputs.request.intentKind
      inputs.request.intentParams gates.wireSize tokenId := by
    rw [hkind, hparams]
    exact hbuilds.of_same rfl rfl rfl
  have hsize : resolveWireSize inputs.manifest inputs.envelope inputs.walletEquityAtDecision
      inputs.fixedFraction = .ok gates.wireSize := hdecided.wireSize
  have hpins : (inputs.runInputs none none).DeclaresPins inputs.request :=
    ⟨hmanifestPin, hpolicyPin, hconfigPin⟩
  have hcounted : placedIn own ≤ inputs.targetCount := (hplaced.trans_le hle).trans htarget
  have hmetaBuilt := exists_buildSessionMeta.mp ⟨_, hmeta⟩
  exact ⟨hcounted, hmode, admissionReturn_live hmode hadmission, harmed.sessionCap, harmed.dailyCap,
    hmetaBuilt, ⟨_, _, _, harmed.pinnedBinding, harmed.liveCustody⟩, hpins, hsession.kill_switch,
    ⟨hpermitted, hnoQuote, hcancelAll⟩, tokenId, htoken, gates.wireSize, hsize, hbuilt⟩

/-- Under a cap of one the second order is blocked. -/
theorem capsOneOrder_blocks (hcaps : inputs.CapsOneOrder) :
    (inputs.runInputs durableState arming).orderCap 1 ≠ none := by
  intro hnone
  obtain ⟨hrun, hmanifest, hsession, hday⟩ := orderCap_none.mp hnone
  have hpriors : 0 ≤ (inputs.runInputs durableState arming).priorSessionOrderCount ∧
      0 ≤ (inputs.runInputs durableState arming).priorDayOrderCount := runInputs_prior
  obtain ⟨hprior, hprior'⟩ := hpriors
  rcases hcaps with hcap | hcap | hcap | hcap
  · have := hrun (hcap ▸ zero_lt_one)
    exact absurd (hcap ▸ this) (by simp)
  · have := hmanifest (hcap ▸ zero_lt_one)
    exact absurd (hcap ▸ this) (by simp)
  · have := hsession (hcap ▸ zero_lt_one)
    exact absurd (hcap ▸ this) (by simpa using hprior)
  · have := hday (hcap ▸ zero_lt_one)
    exact absurd (hcap ▸ this) (by simpa using hprior')

/-- **The orders of a run of a call**: as many as the occurrences of the target at most, one at most
under a cap of one, and none that the request, the manifest and the envelope do not allow. -/
theorem runInputs_placed (hadmission : admissionReturn inputs durableState = none)
    (h : (runDustExecution (inputs.runInputs durableState arming)).exec w = (r, w')) :
    ∃ own, w'.history = w.history ++ own ∧ placedIn own ≤ inputs.targetCount ∧
      (inputs.CapsOneOrder → placedIn own ≤ 1) ∧ (0 < placedIn own → inputs.AllowsOrder) := by
  cases hmode : inputs.request.mode with
  | dryRun =>
    obtain ⟨own, hown, hsubmit⟩ := (runDustExecution_dryRun hmode).of_exec h
    have hplaced : placedIn own = 0 :=
      List.countP_eq_zero.mpr fun call hcall => by simp [hsubmit call hcall]
    exact ⟨own, hown, by omega, fun _ => by omega, fun hpos => by omega⟩
  | liveGuarded =>
    obtain ⟨own, hown, hpasses, -⟩ := runDustExecution_live hmode h
    have hfirst := runInputs_first hmode hadmission h hown hpasses
    refine ⟨own, hown, ?_, fun hcaps => ?_, fun hpos => (hfirst hpos).2⟩
    · by_cases hpos : 0 < placedIn own
      · exact (hfirst hpos).1
      · omega
    · by_contra hmore
      obtain ⟨loop, order, bundle, proof, risk, hone, -, -, hpassed⟩ :=
        runInputs_order hpasses (not_le.mp hmore)
      exact capsOneOrder_blocks hcaps (hone ▸ hpassed.caps)

end Bound

end Veridex.DustExecution
