import Veridex.DustExecution.RestingExposure
import Veridex.DustExecution.RunGates

/-!
# The status a run reports of its orders (`_status_for`, `runner.py`)

A live run places orders, and reports a status of each. `placements` is the first, from the calls the run
made, with what the venue answers about each right after it; `outcomes` is the second, from the events.
`settles_runTokens` says that they are the same orders, one after the other, and that each status is the
one `_status_for` makes of the answers.

`honest_venue_status` holds the size that matched against the size of the order, and only then calls it
filled. `_status_for` has the verdict and no size, so a part of an order is the whole of it, and an order
whose record says filled is expired when the history is silent. `Placement.WholeOrSilent` is when this
makes no difference.

Results: `settles_honest_iff`, `runDustExecution_honest_iff`.
-/

namespace Veridex.DustExecution

open Veridex.Py Veridex.Lib

/-! ## The orders of a run -/

/-- An order that reached the venue, with its key and what the venue then answers about it. -/
structure Placement where
  wire : WireOrder
  key : String
  truth : VenueTruth

/-- The order of a call, once the write port has answered. -/
def placement? (adapter : Adapter) (history : List Call) : Call → Option Placement
  | .submitOrder wire (.ok result) =>
    let key := result.presubmitRecord.venueOrderKey
    some ⟨wire, key, venueTruth adapter key (history ++ [.submitOrder wire (.ok result)])⟩
  | _ => none

/-- The orders of some calls, made after a history. -/
def placements (adapter : Adapter) : List Call → List Call → List Placement
  | _, [] => []
  | history, call :: calls =>
    (placement? adapter history call).toList ++ placements adapter (history ++ [call]) calls

/-- The intent that an event is. -/
def LifecycleEvent.intent? : LifecycleEvent → Option OrderSubmitIntent
  | .orderSubmitIntent intent => some intent
  | _ => none

/-- The status that an event is. -/
def LifecycleEvent.status? : LifecycleEvent → Option OrderStatusEvent
  | .orderStatusEvent status => some status
  | _ => none

/-- The intents of some events, each with its status. -/
def outcomes (events : List LifecycleEvent) : List (OrderSubmitIntent × OrderStatusEvent) :=
  (events.filterMap LifecycleEvent.intent?).zip (events.filterMap LifecycleEvent.status?)

/-! ## Honest statuses -/

/-- `size_matched + 1e-9 >= requested`. -/
def Reaches (matched requested : ℚ) : Prop := requested ≤ matched + 1 / 10 ^ 9

/-- The status of an order is honest: it is filled only for the whole size, a smaller size is a part, and
it is not expired when its record says that it filled. -/
structure Honest (textOf : Value → String) (outcome : OrderSubmitIntent × OrderStatusEvent)
    (placement : Placement) : Prop where
  decision : outcome.1.decisionId = outcome.2.decisionId
  filled : outcome.2.status = .filled → Reaches outcome.2.filledSize outcome.1.size
  part : 0 < outcome.2.filledSize → ¬ Reaches outcome.2.filledSize outcome.1.size →
    outcome.2.status = .partiallyFilled
  expired : outcome.2.status = .expired → ∀ status, placement.truth.Reports textOf status →
    status ∉ fillStatuses

/-- The statuses of a run are honest: each is that of one of its intents, and of one of its orders. -/
structure HonestStatuses (adapter : Adapter) (history own : List Call) (events : List LifecycleEvent) :
    Prop where
  paired : (outcomes events).map Prod.snd = events.filterMap LifecycleEvent.status?
  honest : List.Forall₂ (Honest adapter.textOf) (outcomes events) (placements adapter history own)

/-- The size that the fill history proves. -/
def Placement.Proves (textOf : Value → String) (placement : Placement) (matched : ℚ) : Prop :=
  evidenceOf none (filledSize textOf · placement.key) placement.truth.fills = .ok (some matched)

/-- The venue proves the whole of an order, or nothing, and proves it when its record says that it
filled. An order without a key is not asked about. -/
structure Placement.WholeOrSilent (textOf : Value → String) (placement : Placement) : Prop where
  whole : placement.key ≠ "" → ∀ matched, placement.Proves textOf matched →
    Reaches matched placement.wire.size
  silent : placement.key ≠ "" → (¬ ∃ matched, placement.Proves textOf matched) →
    ∀ status, placement.truth.Reports textOf status → status ∉ fillStatuses

/-! ## One order -/

/-- The assessment of an order. -/
def Placement.assess (textOf : Value → String) (placement : Placement) :
    Except PyExc UncertainSubmitVerdict :=
  if placement.key = "" then .ok ⟨.ambiguous, placement.key, [], 0, 0⟩
  else placement.truth.assess textOf placement.key

/-- An outcome is what the runner makes of the assessment. -/
structure Settles (textOf : Value → String) (outcome : OrderSubmitIntent × OrderStatusEvent)
    (placement : Placement) : Prop where
  decision : outcome.1.decisionId = outcome.2.decisionId
  size : outcome.1.size = placement.wire.size
  status : ∃ verdict, placement.assess textOf = .ok verdict ∧
    outcome.2.status = statusFor verdict.state verdict.matchedFillSize ∧
    outcome.2.filledSize = verdict.matchedFillSize

section Order

variable {textOf : Value → String} {outcome : OrderSubmitIntent × OrderStatusEvent}
  {placement : Placement}

theorem Placement.Proves.pos {matched : ℚ} (h : placement.Proves textOf matched) : 0 < matched := by
  obtain ⟨page, -, hpage⟩ := evidenceOf_fills.mp h
  exact filledSize_pos hpage

/-- **One order** is honestly reported if and only if the venue proves the whole of it or nothing. -/
theorem settles_honest_iff (h : Settles textOf outcome placement) :
    Honest textOf outcome placement ↔ placement.WholeOrSilent textOf := by
  obtain ⟨hdecision, hsize, verdict, hassess, hstatus, hfilled⟩ := h
  unfold Placement.assess at hassess
  split_ifs at hassess with hkey
  · -- nothing was asked: the order is unresolved, with no size
    obtain rfl := Except.ok.inj hassess
    refine iff_of_true ⟨hdecision, ?_, ?_, ?_⟩ ⟨absurd hkey, absurd hkey⟩
    · simp [hstatus, statusFor]
    · simp [hfilled]
    · simp [hstatus, statusFor]
  · obtain ⟨candidateCount, terminal, matchedSize, -, hterminal, hmatched, rfl⟩ := assess_ok.mp hassess
    cases matchedSize with
    | some matched =>
      have hpos : 0 < matched := Placement.Proves.pos hmatched
      have hproved {m : ℚ} (hm : placement.Proves textOf m) : m = matched := by
        have hsame := Except.ok.inj (hm.symm.trans hmatched)
        exact Option.some.inj hsame
      have hreported : outcome.2.status = .filled := by
        rw [hstatus]
        simp [verdictOf, statusFor, hpos]
      have hsized : outcome.2.filledSize = matched := hfilled
      constructor
      · intro hhonest
        refine ⟨fun _ m hm => ?_, fun _ hnone => absurd ⟨matched, hmatched⟩ hnone⟩
        have hreaches := hhonest.filled hreported
        rwa [hsized, hsize, ← hproved hm] at hreaches
      · intro hwhole
        have hreaches : Reaches outcome.2.filledSize outcome.1.size := by
          rw [hsized, hsize]
          exact hwhole.whole hkey matched hmatched
        exact ⟨hdecision, fun _ => hreaches, fun _ hnot => absurd hreaches hnot, by simp [hreported]⟩
    | none =>
      have hnone : ¬ ∃ m, placement.Proves textOf m := by
        rintro ⟨m, hm⟩
        simpa using Except.ok.inj (hm.symm.trans hmatched)
      have hsized : outcome.2.filledSize = 0 := hfilled
      have hreported : outcome.2.status = if terminal then .expired else .unresolved := by
        rw [hstatus]
        cases terminal <;> simp [verdictOf, statusFor]
      constructor
      · intro hhonest
        refine ⟨fun _ m hm => absurd ⟨m, hm⟩ hnone, fun _ _ status hreports hfill => ?_⟩
        -- a record that reports a fill is terminal, so the order is expired
        have hread := isTerminalRecord_reports.mpr
          ⟨status, hreports, mem_terminalOrderStatuses.mpr (.inl hfill)⟩
        have htrue : terminal = true :=
          Except.ok.inj (hterminal.symm.trans (evidenceOf_order.mpr hread))
        rw [htrue] at hreported
        exact hhonest.expired hreported status hreports hfill
      · intro hsilent
        refine ⟨hdecision, ?_, ?_, fun _ => hsilent.silent hkey hnone⟩
        · cases terminal <;> simp [hreported]
        · simp [hsized]

end Order

/-- Related lists: a property of the pairs that is one of the second members. -/
theorem forall₂_iff_of_related {α β : Type} {R P : α → β → Prop} {Q : β → Prop} {xs : List α}
    {ys : List β} (h : List.Forall₂ R xs ys) (hiff : ∀ x y, R x y → (P x y ↔ Q y)) :
    List.Forall₂ P xs ys ↔ ∀ y ∈ ys, Q y := by
  induction h with
  | nil => simp
  | cons hxy _ ih => rw [List.forall₂_cons, List.forall_mem_cons, hiff _ _ hxy, ih]

/-! ## The calls and the events of a run -/

section Calls

variable {adapter : Adapter} {w u w' : World} {events events' : List LifecycleEvent}

theorem placements_append (history calls calls' : List Call) :
    placements adapter history (calls ++ calls') =
      placements adapter history calls ++ placements adapter (history ++ calls) calls' := by
  induction calls generalizing history with
  | nil => simp [placements]
  | cons call calls ih => simp [placements, ih]

/-- Calls without an order hold no order. -/
theorem placements_of_placedIn {calls : List Call} (h : placedIn calls = 0) (history : List Call) :
    placements adapter history calls = [] := by
  induction calls generalizing history with
  | nil => rfl
  | cons call calls ih =>
    obtain ⟨hcall, hcalls⟩ : ¬ call.isSubmit = true ∧ placedIn calls = 0 := by
      rw [placedIn, List.countP_eq_zero] at h
      refine ⟨h call List.mem_cons_self, List.countP_eq_zero.mpr fun c hc => ?_⟩
      exact h c (List.mem_cons_of_mem call hc)
    have hnone : placement? adapter history call = none := by
      cases call with
      | submitOrder wire answer => simp [Call.isSubmit] at hcall
      | _ => rfl
    rw [placements, hnone, ih hcalls]
    rfl

/-- The statuses are those of the orders placed: the events pair up, and each pair is made of the answers
about its order. -/
def SettlesAll (adapter : Adapter) (events : List LifecycleEvent) (w w' : World) : Prop :=
  (events.filterMap LifecycleEvent.intent?).length = (events.filterMap LifecycleEvent.status?).length ∧
    ∃ own, w'.history = w.history ++ own ∧
      List.Forall₂ (Settles adapter.textOf) (outcomes events) (placements adapter w.history own)

theorem Harmless.settlesAll (h : Harmless w w') : SettlesAll adapter [] w w' := by
  obtain ⟨own, hown, hnone⟩ := h.calls
  refine ⟨rfl, own, hown, ?_⟩
  rw [placements_of_placedIn hnone]
  exact .nil

theorem SettlesAll.append (h : SettlesAll adapter events w u) (h' : SettlesAll adapter events' u w') :
    SettlesAll adapter (events ++ events') w w' := by
  obtain ⟨hlength, own, hown, hsettles⟩ := h
  obtain ⟨hlength', own', hown', hsettles'⟩ := h'
  refine ⟨by simp [hlength, hlength'], own ++ own', by rw [hown', hown, List.append_assoc], ?_⟩
  have houtcomes : outcomes (events ++ events') = outcomes events ++ outcomes events' := by
    rw [outcomes, List.filterMap_append, List.filterMap_append, List.zip_append hlength]
    rfl
  rw [houtcomes, placements_append, ← hown]
  exact List.rel_append hsettles hsettles'

theorem SettlesAll.after (h : Harmless w u) (h' : SettlesAll adapter events u w') :
    SettlesAll adapter events w w' := h.settlesAll.append h'

/-- An event that is neither an intent nor a status adds nothing. -/
theorem SettlesAll.cons {event : LifecycleEvent} (hintent : event.intent? = none)
    (hstatus : event.status? = none) (h : SettlesAll adapter events w w') :
    SettlesAll adapter (event :: events) w w' := by
  unfold SettlesAll outcomes at h ⊢
  rwa [List.filterMap_cons_none hintent, List.filterMap_cons_none hstatus]

end Calls

/-! ## The lifecycles -/

section Lifecycles

variable {ctx : LifecycleContext} {order : LifecycleOrder} {w w' : World}
  {out : SubmitDecision × List LifecycleEvent}

/-- **A live lifecycle** reports the status of its own order. -/
theorem emitLifecycle_settles (hmode : ctx.mode = .liveGuarded) {decision : SubmitDecision}
    {life : OrderLifecycle} (h : (emitLifecycle ctx order).exec w = (.ok (decision, life), w')) :
    SettlesAll ctx.seams.adapter life.events w w' := by
  unfold emitLifecycle at h
  rw [Prog.exec_bind_ok (exec_nextSeq w)] at h
  obtain ⟨price, -, h⟩ := Prog.exec_ofExcept_returned h
  rcases placeOrder_live hmode order price with ⟨arming, auth, writePort, -, hplace⟩ | ⟨-, e, hplace⟩
  · simp only [hplace, bind_assoc] at h
    generalize hwire : order.wire ctx.tickSize arming auth = wire at h
    have hsize : wire.size = order.size := by
      rw [← hwire]
      rfl
    obtain ⟨result, -, h⟩ := exec_ask_returned h
    rw [pure_bind] at h
    unfold completeLifecycle at h
    rw [Prog.exec_bind_ok (exec_nextSeq _)] at h
    obtain ⟨⟨venueOrderId, ackStatus⟩, -, h⟩ := Prog.exec_ofExcept_returned h
    rw [Prog.exec_bind_ok (exec_nextSeq _)] at h
    obtain ⟨⟨state, matchedFillSize⟩, t, hrec, h⟩ := Prog.exec_bind_returned h
    rw [Prog.exec_bind_ok (exec_nextSeq _), Prog.exec_bind_ok (exec_nextSeq _)] at h
    obtain ⟨hout, rfl⟩ := Prod.mk.inj h
    obtain ⟨rfl, rfl⟩ := Prod.mk.inj (Except.ok.inj hout)
    obtain ⟨reads, hreads, hquiet⟩ := ((quiet_reconcileAfterSubmit _ _).of_exec hrec).1
    obtain ⟨verdict, v, hassess, hverdict⟩ := Prog.exec_bind_returned hrec
    rw [Prog.exec_pure, Prod.mk.injEq, Except.ok.injEq, Prod.mk.injEq] at hverdict
    obtain ⟨⟨rfl, rfl⟩, rfl⟩ := hverdict
    have hplacements : placements ctx.seams.adapter w.history (.submitOrder wire (.ok result) :: reads) =
        [⟨wire, result.presubmitRecord.venueOrderKey, venueTruth ctx.seams.adapter
          result.presubmitRecord.venueOrderKey (w.history ++ [.submitOrder wire (.ok result)])⟩] := by
      rw [placements, placements_of_placedIn (placedIn_quiet hquiet)]
      rfl
    have hanswer := congrArg Prod.fst hassess
    rw [exec_assessUncertainSubmit] at hanswer
    refine ⟨rfl, .submitOrder wire (.ok result) :: reads, ?_, ?_⟩
    · simpa [World.record_history] using hreads
    · rw [hplacements]
      exact .cons ⟨rfl, hsize.symm, verdict, hanswer, rfl, rfl⟩ .nil
  · simp only [hplace] at h
    rw [Prog.exec_bind_error (Prog.exec_throw _)] at h
    simp at h

theorem emitEvents_settles (hmode : ctx.mode = .liveGuarded) {order : LifecycleOrder}
    (h : (do
      let (decision, life) ← emitLifecycle ctx order
      return (decision, life.events) : Lane _).exec w = (.ok out, w')) :
    SettlesAll ctx.seams.adapter out.2 w w' := by
  obtain ⟨⟨decision, life⟩, t, hlife, h⟩ := Prog.exec_bind_returned h
  obtain ⟨hout, rfl⟩ := Prod.mk.inj h
  obtain rfl := Except.ok.inj hout
  exact emitLifecycle_settles hmode hlife

theorem emitOrderLifecycle_settles (hmode : ctx.mode = .liveGuarded)
    {manifest : StrategyExperimentManifest} {quote : DustQuote} {side : Side} {tif : TimeInForce}
    {wireSize : ℚ}
    (h : (emitOrderLifecycle ctx manifest quote side tif wireSize).exec w = (.ok out, w')) :
    SettlesAll ctx.seams.adapter out.2 w w' := by
  unfold emitOrderLifecycle at h
  split at h
  · exact emitEvents_settles hmode h
  · simp at h

theorem emitCancelReplaceLifecycle_settles (hmode : ctx.mode = .liveGuarded) {resting : RestingOrder}
    {replaces : String}
    (h : (emitCancelReplaceLifecycle ctx resting replaces).exec w = (.ok out, w')) :
    SettlesAll ctx.seams.adapter out.2 w w' := by
  unfold emitCancelReplaceLifecycle at h
  rw [hmode] at h
  obtain ⟨⟨canceled, withdrawn⟩, t, hold, h⟩ := Prog.exec_bind_returned h
  have ht : Harmless w t := ((quiet_cancelOldOrder _ _).of_exec hold).harmless
  have hseq : Harmless w { t with nextSeq := t.nextSeq + 1 } :=
    IsTrans.trans _ _ _ ht (quiet_nextSeq t).harmless
  rw [Prog.exec_bind_ok (exec_nextSeq t)] at h
  simp only [true_and] at h
  split_ifs at h
  · obtain ⟨hout, rfl⟩ := Prod.mk.inj h
    obtain rfl := Except.ok.inj hout
    exact .cons rfl rfl hseq.settlesAll
  · obtain ⟨⟨decision, events⟩, u, hrest, h⟩ := Prog.exec_bind_returned h
    obtain ⟨hout, rfl⟩ := Prod.mk.inj h
    obtain rfl := Except.ok.inj hout
    exact .cons rfl rfl (.after hseq (emitEvents_settles hmode hrest))

end Lifecycles

/-! ## One token -/

section Token

variable {inputs : RunInputs} {gates : RunGates} {orderCap : Option AbstainReason}
  {tokenId : String} {quote : DustQuote} {nowS : ℤ} {w w' : World}
  {out : SubmitDecision × List LifecycleEvent}

theorem abstain_settles {reason : AbstainReason} {u : World} (hu : Harmless w u)
    (h : (pure (abstain tokenId reason, []) : Lane _).exec u = (.ok out, w')) :
    SettlesAll inputs.seams.adapter out.2 w w' := by
  obtain ⟨hout, rfl⟩ := Prod.mk.inj h
  obtain rfl := Except.ok.inj hout
  exact hu.settlesAll

theorem unlessCrossing_settles {side : Side} {price : PyFloat} {proposed : String}
    {place : Lane (SubmitDecision × List LifecycleEvent)}
    (hplace : place.exec w = (.ok out, w') → SettlesAll inputs.seams.adapter out.2 w w')
    (h : (unlessCrossing inputs tokenId side price proposed place).exec w = (.ok out, w')) :
    SettlesAll inputs.seams.adapter out.2 w w' := by
  unfold unlessCrossing at h
  obtain ⟨reason, -, h⟩ := Prog.exec_ofExcept_returned h
  cases reason with
  | some reason => exact abstain_settles (Std.Refl.refl _) h
  | none => exact hplace h

theorem emitMaker_settles (hmode : inputs.mode = .liveGuarded) {resting : RestingOrder}
    (h : (emitMaker inputs gates tokenId quote nowS resting).exec w = (.ok out, w')) :
    SettlesAll inputs.seams.adapter out.2 w w' := by
  unfold emitMaker at h
  simp only at h
  split_ifs at h
  · split at h
    · split_ifs at h
      · exact abstain_settles (Std.Refl.refl _) h
      · exact emitCancelReplaceLifecycle_settles hmode h
    · exact abstain_settles (Std.Refl.refl _) h
  · exact emitEvents_settles hmode h

theorem dispatchIntent_settles (hmode : inputs.mode = .liveGuarded)
    (h : (dispatchIntent inputs gates tokenId quote nowS).exec w = (.ok out, w')) :
    SettlesAll inputs.seams.adapter out.2 w w' := by
  unfold dispatchIntent at h
  split_ifs at h
  · unfold dispatchTake at h
    split at h
    · exact abstain_settles (Std.Refl.refl _) h
    · split at h
      · exact unlessCrossing_settles (fun hplace => emitOrderLifecycle_settles hmode hplace) h
      · simp at h
  · unfold dispatchMaker at h
    split at h
    · exact abstain_settles (Std.Refl.refl _) h
    · exact unlessCrossing_settles (fun hplace => emitMaker_settles hmode hplace) h

/-- **One token** reports the status of the order it placed. -/
theorem decideAndSubmit_settles (hmode : inputs.mode = .liveGuarded)
    (h : (decideAndSubmit inputs gates orderCap tokenId).exec w = (.ok out, w')) :
    SettlesAll inputs.seams.adapter out.2 w w' := by
  unfold decideAndSubmit at h
  cases hpre : preQuoteBlockReason inputs gates tokenId with
  | some reason =>
    rw [hpre] at h
    exact abstain_settles (Std.Refl.refl _) h
  | none =>
    rw [hpre] at h
    obtain ⟨served, t, hread, h⟩ := Prog.exec_bind_returned h
    have ht : Harmless w t := ((quiet_readQuote _ _).of_exec hread).harmless
    cases served with
    | none => exact abstain_settles ht h
    | some quote =>
      obtain ⟨now, u, hnow, h⟩ := Prog.exec_bind_returned h
      have hu : Harmless w u :=
        IsTrans.trans _ _ _ ht ((quiet_ask fun _ => rfl).of_exec hnow).harmless
      rw [Prog.exec_bind_ok Prog.exec_get] at h
      split at h
      · exact abstain_settles hu h
      · exact .after hu (dispatchIntent_settles hmode h)

/-- **The loop over the universe** reports the status of each order, in the order they were placed. -/
theorem runTokens_settles (hmode : inputs.mode = .liveGuarded) : ∀ {tokenIds : List String}
    {ordersThisRun : ℕ} {w w' : World} {decisions : List SubmitDecision} {events : List LifecycleEvent},
    (runTokens inputs gates tokenIds ordersThisRun).exec w = (.ok (decisions, events), w') →
      SettlesAll inputs.seams.adapter events w w'
  | [], _, w, w', decisions, events, h => by
    obtain ⟨hout, rfl⟩ := Prod.mk.inj h
    obtain ⟨rfl, rfl⟩ := Prod.mk.inj (Except.ok.inj hout)
    exact Harmless.settlesAll (Std.Refl.refl _)
  | tokenId :: tokenIds, _, w, w', decisions, events, h => by
    obtain ⟨⟨decision, tokenEvents⟩, u, htoken, h⟩ := Prog.exec_bind_returned h
    obtain ⟨⟨rest, restEvents⟩, v, hrest, h⟩ := Prog.exec_bind_returned h
    obtain ⟨hout, rfl⟩ := Prod.mk.inj h
    obtain ⟨rfl, rfl⟩ := Prod.mk.inj (Except.ok.inj hout)
    exact (decideAndSubmit_settles hmode htoken).append (runTokens_settles hmode hrest)

end Token

/-! ## The run -/

section Run

variable {inputs : RunInputs} {w w' : World} {result : DustExecutionResult}

/-- **The statuses of a live run** are made of the answers about its orders, one for one. -/
theorem runDustExecution_settles (hmode : inputs.mode = .liveGuarded)
    (h : (runDustExecution inputs).exec w = (.ok result, w')) :
    SettlesAll inputs.seams.adapter result.events w w' := by
  unfold runDustExecution at h
  obtain ⟨sessionMeta, -, h⟩ := Prog.exec_ofExcept_returned h
  let start : World := { w with session := inputs.startSession, nextSeq := 1 }
  rw [startRun, Prog.exec_bind_ok (Prog.exec_modify _)] at h
  -- the session is new, so only the calls of the stages are compared with `w`
  suffices hstart : SettlesAll inputs.seams.adapter result.events start w' from hstart
  obtain ⟨risk, t, htriggers, h⟩ := Prog.exec_bind_returned h
  have ht : Harmless start t := (harmless_applySafetyTriggers _).of_exec htriggers
  obtain ⟨gates, u, hdecide, h⟩ := Prog.exec_bind_returned h
  have hu : Harmless start u :=
    IsTrans.trans _ _ _ ht ((quiet_decideGates _).of_exec hdecide).harmless
  obtain ⟨snapshot, v, hopen, h⟩ := Prog.exec_bind_returned h
  have hv : Harmless start v := IsTrans.trans _ _ _ hu (harmless_openRun.of_exec hopen)
  obtain ⟨⟨decisions, tokenEvents⟩, x, hloop, h⟩ := Prog.exec_bind_returned h
  obtain ⟨⟨label, shutdownDecision⟩, y, hclose, h⟩ := Prog.exec_bind_returned h
  obtain ⟨hresult, rfl⟩ := Prod.mk.inj h
  obtain rfl := Except.ok.inj hresult
  obtain ⟨snapshot, rfl⟩ := openRun_ok hopen
  obtain ⟨label, rfl⟩ := closeRun_ok hclose
  have hend : SettlesAll inputs.seams.adapter [.dustRunLabelEvent label] x y :=
    .cons rfl rfl (harmless_closeRun.of_exec hclose).settlesAll
  exact .cons rfl rfl (.after hv ((runTokens_settles hmode hloop).append hend))

/-- **Honest statuses**: a live run reports its orders honestly if and only if the venue proves of each
of them the whole or nothing. -/
theorem runDustExecution_honest_iff (hmode : inputs.mode = .liveGuarded)
    (h : (runDustExecution inputs).exec w = (.ok result, w')) :
    ∃ own, w'.history = w.history ++ own ∧
      (HonestStatuses inputs.seams.adapter w.history own result.events ↔
        ∀ placement ∈ placements inputs.seams.adapter w.history own,
          placement.WholeOrSilent inputs.seams.adapter.textOf) := by
  obtain ⟨hlength, own, hown, hsettles⟩ := runDustExecution_settles hmode h
  refine ⟨own, hown, ?_⟩
  have hpaired : (outcomes result.events).map Prod.snd =
      result.events.filterMap LifecycleEvent.status? := List.map_snd_zip hlength.ge
  rw [← forall₂_iff_of_related hsettles fun _ _ => settles_honest_iff]
  exact ⟨HonestStatuses.honest, fun hhonest => ⟨hpaired, hhonest⟩⟩

end Run

/-- A venue whose history shows a part of the order, or nothing, and whose record says that it filled. -/
def fillingAdapter (matched : Option ℚ) : Adapter where
  getOrders := ArmedRun.adapter.getOrders
  getOrder := some fun _ _ => .ok (.dict [("status", .str "filled")])
  getFillHistory := some fun _ key => .ok (.list (matched.toList.map fun size =>
    .dict [("taker_order_id", .str key), ("size", .float (.fin size))]))
  cancelAllOrders := ArmedRun.adapter.cancelAllOrders
  cancelSingleOrder := none
  textOf _ := ""

/-- The armed run of one share, at that venue. -/
def fillingRun (matched : Option ℚ) : RunInputs :=
  { ArmedRun.inputs [] none "token" with
    seams := { ArmedRun.seams "token" with adapter := fillingAdapter matched } }

/-- What a run reports: sizes, statuses and filled sizes. -/
def reported (inputs : RunInputs) : Except PyExc (List (ℚ × OrderStatus × ℚ)) :=
  ((runDustExecution inputs).exec ArmedRun.start).1.map fun result =>
    (outcomes result.events).map fun outcome =>
      (outcome.1.size, outcome.2.status, outcome.2.filledSize)

theorem exists_of_reported {inputs : RunInputs} {rows : List (ℚ × OrderStatus × ℚ)}
    (h : reported inputs = .ok rows) : ∃ result w',
      (runDustExecution inputs).exec ArmedRun.start = (.ok result, w') ∧
      (outcomes result.events).map (fun outcome =>
        (outcome.1.size, outcome.2.status, outcome.2.filledSize)) = rows := by
  unfold reported at h
  rcases hrun : (runDustExecution inputs).exec ArmedRun.start with ⟨_ | result, w'⟩
  · simp [hrun, Except.map] at h
  · rw [hrun] at h
    exact ⟨result, w', rfl, Except.ok.inj h⟩

/-- A run whose order fills whole reports it honestly. -/
theorem runDustExecution_honest_iff_whole : ∃ result w',
    (runDustExecution (fillingRun (some 1))).exec ArmedRun.start = (.ok result, w') ∧
      ∃ own, w'.history = ArmedRun.start.history ++ own ∧
        (HonestStatuses (fillingAdapter (some 1)) ArmedRun.start.history own result.events ↔
          ∀ placement ∈ placements (fillingAdapter (some 1)) ArmedRun.start.history own,
            placement.WholeOrSilent fun _ => "") := by
  have hreported : reported (fillingRun (some 1)) = .ok [(1, .filled, 1)] := by decide +kernel
  obtain ⟨result, w', hrun, -⟩ := exists_of_reported hreported
  exact ⟨result, w', hrun, runDustExecution_honest_iff rfl hrun⟩

/-- **A part is reported as the whole**, half a share of one as filled, and an order that its record
says filled is reported expired where the history is silent. -/
theorem runDustExecution_rounds_up :
    (∃ result w' own, (runDustExecution (fillingRun (some (1 / 2)))).exec ArmedRun.start =
        (.ok result, w') ∧ w'.history = ArmedRun.start.history ++ own ∧
      (outcomes result.events).map (fun outcome =>
        (outcome.1.size, outcome.2.status, outcome.2.filledSize)) = [(1, .filled, 1 / 2)] ∧
      ¬ HonestStatuses (fillingAdapter (some (1 / 2))) ArmedRun.start.history own result.events) ∧
    reported (fillingRun none) = .ok [(1, .expired, 0)] := by
  have hreported : reported (fillingRun (some (1 / 2))) = .ok [(1, .filled, 1 / 2)] := by
    decide +kernel
  obtain ⟨result, w', hrun, hrows⟩ := exists_of_reported hreported
  obtain ⟨own, hown⟩ : ∃ own, w'.history = ArmedRun.start.history ++ own := by
    obtain ⟨-, own, hown, -⟩ := runDustExecution_settles rfl hrun
    exact ⟨own, hown⟩
  refine ⟨⟨result, w', own, hrun, hown, hrows, ?_⟩, by decide +kernel⟩
  rintro ⟨-, hhonest⟩
  obtain ⟨outcome, houtcome⟩ := List.length_eq_one_iff.mp
    ((List.length_map _).symm.trans (congrArg List.length hrows))
  rw [houtcome] at hrows hhonest
  simp only [List.map_cons, List.map_nil, List.cons.injEq, Prod.mk.injEq, and_true] at hrows
  obtain ⟨hsize, hstatus, hfilled⟩ := hrows
  obtain ⟨placement, rest, hfirst, -, -⟩ := List.forall₂_cons_left_iff.mp hhonest
  have hreaches := hfirst.filled hstatus
  rw [Reaches, hsize, hfilled] at hreaches
  norm_num at hreaches

end Veridex.DustExecution
