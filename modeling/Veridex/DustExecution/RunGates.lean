import Veridex.DustExecution.TokenRuns

/-!
# What a live run passed before an order reached the wire

The stages before the token loop place no order, and they leave the session blocked once anything
has blocked it. So when an order is placed the session was never blocked: every trigger was quiet,
the startup read returned an empty book, and the run's first three calls were the verification of
its interlock, the clock and that read (`openRun_unblocked`).

Results: `runDustExecution_live`.
-/

namespace Veridex.DustExecution

open Veridex.Py Veridex.Policy Veridex.Lib

/-! ## Stages that place no order -/

/-- No order is placed, and a blocked session stays blocked. -/
def Harmless (w w' : World) : Prop :=
  Calls (fun call => call.isSubmit = false) w w' ∧ BlockKept w w'

instance : Std.Refl Harmless := ⟨fun w => ⟨Std.Refl.refl w, Std.Refl.refl w⟩⟩

instance : IsTrans World Harmless := ⟨fun _ _ _ h h' =>
  ⟨IsTrans.trans _ _ _ h.1 h'.1, IsTrans.trans _ _ _ h.2 h'.2⟩⟩

theorem Quiet.harmless {w w' : World} (h : Quiet w w') : Harmless w w' := by
  refine ⟨h.1.imp fun call hquiet => ?_, h.2.blockKept⟩
  simp only [Call.isQuiet, Bool.and_eq_true, Bool.not_eq_true'] at hquiet
  exact hquiet.1

section Stages

variable {seams : Seams} {inputs : RunInputs} {gates : RunGates} {w w' : World}

/-- The session where an entry into the sweep left it. -/
def CancelAllEntry.session : CancelAllEntry → DustSafetySession
  | .noop _ session => session
  | .sweeping session => session

/-- **The sweep blocks**, whether it returns or raises, and places no order. -/
theorem finishCancelAll_blocks {cause : CancelAllCause} {sweep : Surface Unit ℤ}
    {entry : CancelAllEntry} {r : Except PyExc CancelAllAck}
    (hentry : entry.session.submitBlocked = true)
    (h : (finishCancelAll seams cause sweep entry).exec w = (r, w')) :
    Harmless w w' ∧ w'.session.submitBlocked = true := by
  have hset (session : DustSafetySession) (hs : session.submitBlocked = true) :
      Harmless w { w with session := session } := ⟨⟨[], by simp⟩, fun _ => hs⟩
  cases entry with
  | noop ack session =>
    obtain ⟨-, rfl⟩ := Prod.mk.inj h
    exact ⟨hset session hentry, hentry⟩
  | sweeping session =>
    have hswept (answer : Except PyExc ℤ) (session' : DustSafetySession)
        (hs : session'.submitBlocked = true) : Harmless w
          { (World.record { w with session := session } (.cancelAllOrders answer)) with
            session := session' } :=
      ⟨⟨[.cancelAllOrders answer], rfl, by simp [Call.isSubmit]⟩, fun _ => hs⟩
    unfold finishCancelAll setSession at h
    rw [Prog.exec_bind_ok (Prog.exec_modify _)] at h
    obtain ⟨e, -, -, rfl⟩ | ⟨n, -, h⟩ := exec_ask_cases h
    · exact ⟨hswept _ session hentry, hentry⟩
    · obtain ⟨-, rfl⟩ := Prod.mk.inj h
      exact ⟨hswept _ _ hentry, hentry⟩

theorem cancelAllAndBlockEnter_blocked (recvTs : ℤ) (cause : CancelAllCause)
    (session : DustSafetySession) :
    (cancelAllAndBlockEnter recvTs cause session).session.submitBlocked = true := by
  rcases cancelAllAndBlockEnter_cases recvTs cause session with
    ⟨ack, session', h, -, hb, -⟩ | ⟨session', h, -, hb, -⟩
  · rw [h]
    exact hb
  · rw [h]
    exact hb

theorem cancelAllAndBlock_blocks {cause : CancelAllCause} {sweep : Surface Unit ℤ}
    {r : Except PyExc CancelAllAck} (h : (cancelAllAndBlock seams cause sweep).exec w = (r, w')) :
    Harmless w w' ∧ w'.session.submitBlocked = true := by
  unfold cancelAllAndBlock at h
  rw [Prog.exec_bind_ok Prog.exec_get] at h
  exact finishCancelAll_blocks (cancelAllAndBlockEnter_blocked _ _ _) h

theorem harmless_cancelAllAndBlock (cause : CancelAllCause) (sweep : Surface Unit ℤ) :
    Prog.Keeps Harmless (cancelAllAndBlock seams cause sweep) :=
  fun _ => (cancelAllAndBlock_blocks rfl).1

/-! ### What every stage keeps that the sweep keeps -/

section Kept

variable {R : World → World → Prop} [Std.Refl R] [IsTrans World R]
  (hcancel : ∀ cause sweep, Prog.Keeps R (cancelAllAndBlock seams cause sweep))

omit [IsTrans World R] in
theorem keeps_requireCancelAllAdapter (adapter : Adapter) :
    Prog.Keeps R (requireCancelAllAdapter adapter) := by
  unfold requireCancelAllAdapter
  split
  · exact Prog.keeps_pure _
  · exact Prog.keeps_throw _

include hcancel

theorem keeps_trigger (fires : Bool) (cause : CancelAllCause) :
    Prog.Keeps R (trigger seams fires cause) := by
  unfold trigger
  split_ifs
  · refine Prog.keeps_bind (keeps_requireCancelAllAdapter _) fun sweep => ?_
    exact Prog.keeps_bind (hcancel _ _) fun _ => Prog.keeps_pure _
  · exact Prog.keeps_pure _

end Kept

theorem harmless_trigger (fires : Bool) (cause : CancelAllCause) :
    Prog.Keeps Harmless (trigger seams fires cause) :=
  keeps_trigger harmless_cancelAllAndBlock fires cause

/-- **A trigger that leaves the session open** did not fire. -/
theorem trigger_unblocked {fires : Bool} {cause : CancelAllCause}
    (h : (trigger seams fires cause).exec w = (.ok (), w'))
    (hopen : w'.session.submitBlocked = false) : fires = false ∧ w' = w := by
  unfold trigger at h
  split_ifs at h with hfires
  · obtain ⟨sweep, t, -, h⟩ := Prog.exec_bind_returned h
    obtain ⟨ack, u, hsweep, h⟩ := Prog.exec_bind_returned h
    obtain ⟨-, rfl⟩ := Prod.mk.inj h
    simp [(cancelAllAndBlock_blocks hsweep).2] at hopen
  · obtain ⟨-, rfl⟩ := Prod.mk.inj h
    exact ⟨by simpa using hfires, rfl⟩

/-! ## The fills and the triggers -/

theorem onRealizedFillEnter_ok {recvTs : ℤ} {fill : FillSource} {risk risk' : RiskAccumulator}
    {envelope : PolicyEnvelope} {session : DustSafetySession} {entry : Option CancelAllEntry} :
    onRealizedFillEnter recvTs fill risk envelope session = .ok (risk', entry) ↔
      risk.applyRealizedFill fill = .ok risk' ∧
        entry = if risk'.breachesCaps envelope then some (onLossBreachEnter recvTs session)
          else none := by
  unfold onRealizedFillEnter
  cases hfill : risk.applyRealizedFill fill with
  | error e => simp [bind, Except.bind]
  | ok folded =>
    simp only [bind, Except.bind, pure, Except.pure, Except.ok.injEq]
    constructor
    · intro h
      split_ifs at h with hbreach
      · obtain ⟨rfl, rfl⟩ := Prod.mk.inj (Except.ok.inj h)
        exact ⟨rfl, by rw [if_pos hbreach]⟩
      · obtain ⟨rfl, rfl⟩ := Prod.mk.inj (Except.ok.inj h)
        exact ⟨rfl, by rw [if_neg hbreach]⟩
    · rintro ⟨rfl, rfl⟩
      split_ifs <;> rfl

/-- A fill is folded, and a breach goes through the primitive. -/
theorem onRealizedFill_eq (envelope : PolicyEnvelope) (sweep : Surface Unit ℤ)
    (fill : RealizedFillRecord) (risk : RiskAccumulator) :
    onRealizedFill seams envelope sweep fill risk = (do
      let risk ← Prog.ofExcept (risk.applyRealizedFill (.realized fill))
      if risk.breachesCaps envelope then do
        let _ack ← cancelAllAndBlock seams .lossBreach sweep
        return risk
      else return risk) := by
  refine Prog.ext_exec fun w => ?_
  unfold onRealizedFill
  rw [Prog.exec_bind_ok Prog.exec_get]
  cases hfold : risk.applyRealizedFill (.realized fill) with
  | error e =>
    have henter : onRealizedFillEnter (seams.clockMs w.history) (.realized fill) risk envelope
        w.session = .error e := by
      unfold onRealizedFillEnter
      rw [hfold]
      rfl
    rw [henter, Prog.exec_bind_error (Prog.exec_ofExcept _),
      Prog.exec_bind_error (Prog.exec_ofExcept _)]
  | ok folded =>
    rw [onRealizedFillEnter_ok.mpr ⟨hfold, rfl⟩, Prog.exec_bind_ok (Prog.exec_ofExcept _),
      Prog.exec_bind_ok (Prog.exec_ofExcept _)]
    simp only
    split_ifs
    · unfold cancelAllAndBlock
      rw [bind_assoc, Prog.exec_bind_ok Prog.exec_get]
      rfl
    · rfl

/-- **A fill that leaves the session open** was folded, and breached no cap. -/
theorem onRealizedFill_unblocked {envelope : PolicyEnvelope} {sweep : Surface Unit ℤ}
    {fill : RealizedFillRecord} {risk risk' : RiskAccumulator}
    (h : (onRealizedFill seams envelope sweep fill risk).exec w = (.ok risk', w'))
    (hopen : w'.session.submitBlocked = false) :
    risk.applyRealizedFill (.realized fill) = .ok risk' ∧ risk'.breachesCaps envelope = false ∧
      w' = w := by
  unfold onRealizedFill at h
  rw [Prog.exec_bind_ok Prog.exec_get] at h
  obtain ⟨⟨folded, entry⟩, hfill, h⟩ := Prog.exec_ofExcept_returned h
  obtain ⟨hfold, rfl⟩ := onRealizedFillEnter_ok.mp hfill
  simp only at h
  split_ifs at h with hbreach
  · obtain ⟨ack, u, hsweep, h⟩ := Prog.exec_bind_returned h
    obtain ⟨-, rfl⟩ := Prod.mk.inj h
    have := finishCancelAll_blocks (cancelAllAndBlockEnter_blocked _ _ _) hsweep
    simp [this.2] at hopen
  · obtain ⟨hrisk, rfl⟩ := Prod.mk.inj h
    obtain rfl := Except.ok.inj hrisk
    exact ⟨hfold, by simpa using hbreach, rfl⟩

/-- The fills fold to an accumulator, and no fill on the way breaches a cap. -/
def FoldsWithin (envelope : PolicyEnvelope) : List RealizedFillRecord → RiskAccumulator →
    RiskAccumulator → Prop
  | [], risk, risk' => risk' = risk
  | fill :: fills, risk, risk' => ∃ next, risk.applyRealizedFill (.realized fill) = .ok next ∧
      next.breachesCaps envelope = false ∧ FoldsWithin envelope fills next risk'

section Kept

variable {R : World → World → Prop} [Std.Refl R] [IsTrans World R]
  (hcancel : ∀ cause sweep, Prog.Keeps R (cancelAllAndBlock seams cause sweep))

include hcancel

theorem keeps_onRealizedFill (envelope : PolicyEnvelope) (sweep : Surface Unit ℤ)
    (fill : RealizedFillRecord) (risk : RiskAccumulator) :
    Prog.Keeps R (onRealizedFill seams envelope sweep fill risk) := by
  rw [onRealizedFill_eq]
  refine Prog.keeps_bind (Prog.keeps_ofExcept _) fun folded => ?_
  split_ifs
  · exact Prog.keeps_bind (hcancel _ _) fun _ => Prog.keeps_pure _
  · exact Prog.keeps_pure _

theorem keeps_foldRealizedFills (envelope : PolicyEnvelope) :
    ∀ (fills : List RealizedFillRecord) (risk : RiskAccumulator),
      Prog.Keeps R (foldRealizedFills seams envelope fills risk)
  | [], _ => Prog.keeps_pure _
  | _ :: fills, _ =>
    Prog.keeps_bind (keeps_requireCancelAllAdapter _) fun _ =>
      Prog.keeps_bind (keeps_onRealizedFill hcancel _ _ _ _) fun _ =>
        keeps_foldRealizedFills envelope fills _

end Kept

/-- **The safety triggers** keep what the primitive keeps. -/
theorem keeps_applySafetyTriggers {R : World → World → Prop} [Std.Refl R] [IsTrans World R]
    (hcancel : ∀ cause sweep, Prog.Keeps R (cancelAllAndBlock inputs.seams cause sweep))
    (risk : RiskAccumulator) : Prog.Keeps R (applySafetyTriggers inputs risk) := by
  unfold applySafetyTriggers
  refine Prog.keeps_bind (keeps_foldRealizedFills hcancel _ _ _) fun folded => ?_
  refine Prog.keeps_bind (keeps_trigger hcancel _ _) fun _ => ?_
  exact Prog.keeps_bind (keeps_trigger hcancel _ _) fun _ => Prog.keeps_pure _

theorem foldRealizedFills_unblocked {envelope : PolicyEnvelope} :
    ∀ {fills : List RealizedFillRecord} {risk risk' : RiskAccumulator} {w w' : World},
      (foldRealizedFills seams envelope fills risk).exec w = (.ok risk', w') →
      w'.session.submitBlocked = false → FoldsWithin envelope fills risk risk' ∧ w' = w := by
  intro fills
  induction fills with
  | nil =>
    intro risk risk' w w' h _
    obtain ⟨hrisk, rfl⟩ := Prod.mk.inj h
    exact ⟨(Except.ok.inj hrisk).symm, rfl⟩
  | cons fill fills ih =>
    intro risk risk' w w' h hopen
    obtain ⟨sweep, t, hsweep, h⟩ := Prog.exec_bind_returned h
    obtain ⟨next, u, hfill, h⟩ := Prog.exec_bind_returned h
    obtain ⟨hfold, rfl⟩ := ih h hopen
    obtain ⟨hnext, hwithin, rfl⟩ := onRealizedFill_unblocked hfill hopen
    refine ⟨⟨next, hnext, hwithin, hfold⟩, ?_⟩
    unfold requireCancelAllAdapter at hsweep
    split at hsweep
    · exact (Prod.mk.inj hsweep).2.symm
    · simp at hsweep

theorem harmless_applySafetyTriggers (risk : RiskAccumulator) :
    Prog.Keeps Harmless (applySafetyTriggers inputs risk) :=
  keeps_applySafetyTriggers harmless_cancelAllAndBlock risk

/-- **Triggers that leave the session open** did not fire. -/
theorem applySafetyTriggers_unblocked {risk risk' : RiskAccumulator}
    (h : (applySafetyTriggers inputs risk).exec w = (.ok risk', w'))
    (hopen : w'.session.submitBlocked = false) :
    FoldsWithin inputs.envelope inputs.realizedFills risk risk' ∧ inputs.breakerOpen = false ∧
      inputs.envelope.killSwitch = false ∧ w' = w := by
  unfold applySafetyTriggers at h
  obtain ⟨folded, t, hfold, h⟩ := Prog.exec_bind_returned h
  obtain ⟨_, u, hbreaker, h⟩ := Prog.exec_bind_returned h
  obtain ⟨_, v, hkill, h⟩ := Prog.exec_bind_returned h
  obtain ⟨hrisk, rfl⟩ := Prod.mk.inj h
  obtain rfl := Except.ok.inj hrisk
  obtain ⟨hkillSwitch, rfl⟩ := trigger_unblocked hkill hopen
  obtain ⟨hbreakerOpen, rfl⟩ := trigger_unblocked hbreaker hopen
  obtain ⟨hwithin, rfl⟩ := foldRealizedFills_unblocked hfold hopen
  exact ⟨hwithin, hbreakerOpen, hkillSwitch, rfl⟩

end Stages

/-! ## The session-level gates -/

section Gates

variable {inputs : RunInputs} {gates : RunGates} {risk : RiskAccumulator} {w w' : World}

theorem authorizationBlockReason_none {admission : StrategyAuthorizationDecision} :
    authorizationBlockReason inputs admission = none ↔
      (∀ request ∈ inputs.request, inputs.DeclaresPins request) ∧ admission.verdict = .allow := by
  unfold authorizationBlockReason
  split_ifs with hpins hdeny
  · obtain ⟨request, hrequest, hnot⟩ := hpins
    simp only [false_iff, not_and]
    intro h
    exact absurd (h request hrequest) hnot
  · simp [hdeny]
  · push Not at hpins
    refine ⟨fun _ => ⟨hpins, ?_⟩, fun _ => rfl⟩
    cases hv : admission.verdict with
    | allow => rfl
    | deny => exact absurd hv hdeny

/-- The realized losses are below both the envelope's and the manifest's cap, where enabled. -/
structure LossesBelow (inputs : RunInputs) (risk : RiskAccumulator) : Prop where
  envelope_session : capBreached inputs.envelope.maxSessionLoss risk.realizedLossSession = false
  manifest_session : capBreached inputs.manifest.maxSessionLoss risk.realizedLossSession = false
  envelope_daily : capBreached inputs.envelope.maxDailyLoss risk.realizedLossDay = false
  manifest_daily : capBreached inputs.manifest.maxDailyLoss risk.realizedLossDay = false

theorem lossCapBlockReason_none :
    lossCapBlockReason risk inputs.envelope inputs.manifest = none ↔ LossesBelow inputs risk := by
  unfold lossCapBlockReason
  simp only [capBreached_effectiveLossCap]
  split_ifs with hsession hdaily
  · simp only [false_iff]
    rintro ⟨he, hm, -, -⟩
    simp [he, hm] at hsession
  · simp only [false_iff]
    rintro ⟨-, -, he, hm⟩
    simp [he, hm] at hdaily
  · rw [Bool.or_eq_true, not_or, Bool.not_eq_true, Bool.not_eq_true] at hsession hdaily
    exact ⟨fun _ => ⟨hsession.1, hsession.2, hdaily.1, hdaily.2⟩, fun _ => rfl⟩

/-- The intent of a request is permitted and places an order. -/
structure PlacesOrder (inputs : RunInputs) (request : MMExecutionToolRequest) : Prop where
  permitted : request.intentKind.text ∈ inputs.manifest.permittedIntentKinds
  not_noQuote : request.intentKind ≠ .noQuote
  not_cancelAll : request.intentKind ≠ .cancelAll

theorem intentBlockReason_none : intentBlockReason inputs.request inputs.manifest = none ↔
    ∀ request ∈ inputs.request, PlacesOrder inputs request := by
  unfold intentBlockReason
  cases inputs.request with
  | none => simp
  | some request =>
    simp only [Option.mem_some_iff, forall_eq']
    split_ifs with hpermitted hnoQuote hcancelAll
    · simp only [false_iff]
      exact fun h => h.not_noQuote hnoQuote
    · simp only [false_iff]
      exact fun h => h.not_cancelAll hcancelAll
    · exact ⟨fun _ => ⟨hpermitted, hnoQuote, hcancelAll⟩, fun _ => rfl⟩
    · simp only [false_iff]
      exact fun h => hpermitted h.permitted

theorem quiet_armingBlockReason (sessionId : String) :
    Prog.Keeps Quiet (armingBlockReason inputs sessionId) := by
  unfold armingBlockReason
  cases inputs.mode with
  | liveGuarded => exact quiet_modeBArmingBlockReason _
  | dryRun => exact Prog.keeps_pure _

theorem quiet_decideGates (admission : StrategyAuthorizationDecision) :
    Prog.Keeps Quiet (decideGates inputs risk admission) := by
  unfold decideGates
  refine Prog.keeps_bind (quiet_armingBlockReason _) fun arming => ?_
  exact Prog.keeps_bind (Prog.keeps_ofExcept _) fun wireSize => Prog.keeps_pure _

/-- What the decided gates are. -/
structure Decided (inputs : RunInputs) (risk : RiskAccumulator)
    (admission : StrategyAuthorizationDecision) (gates : RunGates) : Prop where
  genuine : gates.Genuine
  authorization : gates.authorizationBlockReason = authorizationBlockReason inputs admission
  lossCap : gates.lossCapBlockReason = lossCapBlockReason risk inputs.envelope inputs.manifest
  intent : gates.intentBlockReason = intentBlockReason inputs.request inputs.manifest
  effective : effectiveIntent inputs.request = (gates.intent, gates.intentParams)
  enforce : gates.enforceIntentToken = (inputs.request.isSome && gates.intentBlockReason.isNone)
  target : gates.intentTargetToken =
    if gates.enforceIntentToken then gates.intentParams.tokenId else none
  wireSize : resolveWireSize inputs.manifest inputs.envelope inputs.walletEquityAtDecision
    inputs.fixedFraction = .ok gates.wireSize

/-- **The gates that are decided**, in a live run that arms. -/
theorem decideGates_ok {admission : StrategyAuthorizationDecision}
    (h : (decideGates inputs risk admission).exec w = (.ok gates, w')) :
    Decided inputs risk admission gates ∧
      (inputs.mode = .liveGuarded → gates.armingBlockReason = none →
        ∃ bundle proof, inputs.arming = some bundle ∧
          Armed inputs.digests inputs.manifest inputs.envelope inputs.seams.signer bundle proof ∧
          w' = w.record (.verifyInterlock
            (presentedBinding bundle proof inputs.startSession.sessionId) proof.recordingReceipt
            (.ok true))) := by
  unfold decideGates at h
  obtain ⟨arming, t, harming, h⟩ := Prog.exec_bind_returned h
  obtain ⟨wireSize, hsize, h⟩ := Prog.exec_ofExcept_returned h
  obtain ⟨hgates, rfl⟩ := Prod.mk.inj h
  obtain rfl := Except.ok.inj hgates
  have harming_ne : arming ≠ some .modeANoOrders := by
    unfold armingBlockReason at harming
    split at harming
    · exact modeBArmingBlockReason_ne harming
    · obtain ⟨hreason, -⟩ := Prod.mk.inj harming
      simp [← Except.ok.inj hreason]
  refine ⟨⟨⟨harming_ne, ?_, ?_, ?_⟩, rfl, rfl, rfl, rfl, rfl, rfl, hsize⟩, ?_⟩
  · unfold authorizationBlockReason
    split_ifs <;> simp
  · unfold lossCapBlockReason
    split_ifs <;> simp
  · unfold intentBlockReason
    split
    · simp
    · split_ifs <;> simp
  · rintro hmode rfl
    rw [armingBlockReason, hmode] at harming
    exact modeBArmingBlockReason_none harming

/-! ## The stages around the loop -/

theorem quiet_readStartupOpenOrders (adapter : Adapter) :
    Prog.Keeps Quiet (readStartupOpenOrders adapter) := by
  unfold readStartupOpenOrders
  refine Prog.keeps_bind (fun w => ?_) fun answer => ?_
  · rw [exec_readSurface]
    cases adapter.getOrders with
    | none => exact Std.Refl.refl w
    | some surface => exact ⟨⟨[_], rfl, by simp [Call.isQuiet, Call.isSubmit, Call.isSweep]⟩, rfl⟩
  · split <;> exact Prog.keeps_pure _

theorem harmless_blockOnUnknown (seams : Seams) : Prog.Keeps Harmless (blockOnUnknown seams) := by
  unfold blockOnUnknown
  split
  · exact Prog.keeps_bind (harmless_cancelAllAndBlock _ _) fun _ => Prog.keeps_pure _
  · exact Prog.keeps_modify fun w => ⟨⟨[], by simp⟩, fun _ => rfl⟩

theorem harmless_startupOpenOrderSweep (seams : Seams) (enforce : Bool) :
    Prog.Keeps Harmless (startupOpenOrderSweep seams enforce) := by
  unfold startupOpenOrderSweep
  refine Prog.keeps_bind ((quiet_readStartupOpenOrders _).mono fun _ _ => Quiet.harmless)
    fun orders => ?_
  cases orders with
  | none =>
    simp only
    split_ifs
    · exact Prog.keeps_bind (harmless_blockOnUnknown seams) fun _ => Prog.keeps_pure _
    · exact Prog.keeps_pure _
  | some orders => exact Prog.keeps_bind (harmless_trigger _ _) fun _ => Prog.keeps_pure _

theorem blockOnUnknown_blocks {seams : Seams} {r : Except PyExc Unit}
    (h : (blockOnUnknown seams).exec w = (r, w')) : w'.session.submitBlocked = true := by
  unfold blockOnUnknown at h
  split at h
  · obtain ⟨e, hsweep, -⟩ | ⟨ack, t, hsweep, h⟩ := Prog.exec_bind_cases h
    · exact (cancelAllAndBlock_blocks hsweep).2
    · obtain ⟨-, rfl⟩ := Prod.mk.inj h
      exact (cancelAllAndBlock_blocks hsweep).2
  · obtain ⟨-, rfl⟩ := Prod.mk.inj h
    rfl

/-- **A startup sweep that leaves the session open** read an empty book. -/
theorem startupOpenOrderSweep_unblocked {seams : Seams} {count : ℤ}
    (h : (startupOpenOrderSweep seams true).exec w = (.ok count, w'))
    (hopen : w'.session.submitBlocked = false) :
    w' = w.record (.getOrders (.ok (.list []))) := by
  unfold startupOpenOrderSweep at h
  obtain ⟨orders, t, hread, h⟩ := Prog.exec_bind_returned h
  cases orders with
  | none =>
    simp only [if_true] at h
    obtain ⟨_, u, hblock, h⟩ := Prog.exec_bind_returned h
    obtain ⟨-, rfl⟩ := Prod.mk.inj h
    simp [blockOnUnknown_blocks hblock] at hopen
  | some orders =>
    obtain ⟨_, u, htrigger, h⟩ := Prog.exec_bind_returned h
    obtain ⟨-, rfl⟩ := Prod.mk.inj h
    obtain ⟨hnone, rfl⟩ := trigger_unblocked htrigger hopen
    obtain rfl : orders = [] := by
      simpa [List.length_pos_iff] using hnone
    unfold readStartupOpenOrders at hread
    obtain ⟨answer, v, hsurface, hread⟩ := Prog.exec_bind_returned hread
    rw [exec_readSurface] at hsurface
    obtain ⟨hanswer, rfl⟩ := Prod.mk.inj hsurface
    split at hread
    · obtain ⟨horders, rfl⟩ := Prod.mk.inj hread
      obtain rfl := Option.some.inj (Except.ok.inj horders)
      cases hsurf : seams.adapter.getOrders with
      | none => simp [hsurf, guarded] at hanswer
      | some surface =>
        simp only [hsurf, Option.map_some] at hanswer ⊢
        cases hans : surface w.history () with
        | error e =>
          simp only [hans, guarded] at hanswer
          split_ifs at hanswer
          simp at hanswer
        | ok answer =>
          simp only [hans, guarded, Except.ok.injEq, Option.some.injEq] at hanswer
          rw [hanswer]
          rfl
    · simp at hread

theorem harmless_openRun : Prog.Keeps Harmless (openRun inputs risk gates) := by
  unfold openRun
  refine Prog.keeps_bind (quiet_nextSeq.mono fun _ _ => Quiet.harmless) fun seq => ?_
  refine Prog.keeps_bind
    ((quiet_ask fun _ => rfl : Prog.Keeps Quiet (nowS inputs.seams)).mono fun _ _ => Quiet.harmless)
    fun now => ?_
  refine Prog.keeps_bind (harmless_startupOpenOrderSweep _ _) fun _ => ?_
  exact Prog.keeps_bind (harmless_trigger _ _) fun _ => Prog.keeps_pure _

/-- The first event of the stream is a risk snapshot. -/
theorem openRun_ok {event : LifecycleEvent}
    (h : (openRun inputs risk gates).exec w = (.ok event, w')) :
    ∃ snapshot, event = .sessionRiskSnapshot snapshot := by
  unfold openRun at h
  rw [Prog.exec_bind_ok (exec_nextSeq w)] at h
  obtain ⟨now, t, -, h⟩ := Prog.exec_bind_returned h
  obtain ⟨count, u, -, h⟩ := Prog.exec_bind_returned h
  obtain ⟨_, v, -, h⟩ := Prog.exec_bind_returned h
  obtain ⟨hevent, -⟩ := Prod.mk.inj h
  exact ⟨_, (Except.ok.inj hevent).symm⟩

/-- **An armed run that is open at the loop** read the clock and an empty book, and nothing else. -/
theorem openRun_unblocked {event : LifecycleEvent} (hmode : inputs.mode = .liveGuarded)
    (harmed : gates.armingBlockReason = none)
    (h : (openRun inputs risk gates).exec w = (.ok event, w'))
    (hopen : w'.session.submitBlocked = false) : ∃ now,
      w'.history = w.history ++ [.now (.ok now), .getOrders (.ok (.list []))] ∧
      SessionKept w w' := by
  unfold openRun at h
  rw [Prog.exec_bind_ok (exec_nextSeq w)] at h
  obtain ⟨now, -, h⟩ := exec_ask_returned h
  obtain ⟨count, u, hsweep, h⟩ := Prog.exec_bind_returned h
  obtain ⟨_, v, hcancel, h⟩ := Prog.exec_bind_returned h
  obtain ⟨-, rfl⟩ := Prod.mk.inj h
  obtain ⟨-, rfl⟩ := trigger_unblocked hcancel hopen
  simp only [hmode, harmed, decide_true, Option.isNone_none, Bool.and_self] at hsweep
  rw [startupOpenOrderSweep_unblocked hsweep hopen]
  refine ⟨now, ?_, rfl⟩
  simp only [World.record_history, List.append_assoc, List.singleton_append]

theorem harmless_closeRun : Prog.Keeps Harmless (closeRun inputs) := by
  unfold closeRun applyShutdownDecision
  refine Prog.keeps_bind (quiet_nextSeq.mono fun _ _ => Quiet.harmless) fun seq => ?_
  refine Prog.keeps_bind
    ((quiet_ask fun _ => rfl : Prog.Keeps Quiet (nowS inputs.seams)).mono fun _ _ => Quiet.harmless)
    fun now => ?_
  refine Prog.keeps_bind ?_ fun _ => ?_
  · split_ifs
    · refine Prog.keeps_bind Prog.keeps_get fun w => ?_
      exact Prog.keeps_bind (harmless_trigger _ _) fun _ => Prog.keeps_pure _
    · exact Prog.keeps_pure _
  · exact Prog.keeps_pure _

/-- The last event of the stream is the label event. -/
theorem closeRun_ok {out : LifecycleEvent × ShutdownDecision}
    (h : (closeRun inputs).exec w = (.ok out, w')) :
    ∃ label, out.1 = .dustRunLabelEvent label := by
  unfold closeRun at h
  rw [Prog.exec_bind_ok (exec_nextSeq w)] at h
  obtain ⟨now, t, -, h⟩ := Prog.exec_bind_returned h
  obtain ⟨decision, u, -, h⟩ := Prog.exec_bind_returned h
  obtain ⟨hout, -⟩ := Prod.mk.inj h
  exact ⟨_, congrArg Prod.fst (Except.ok.inj hout).symm⟩

end Gates

/-! ## The whole run -/

/-- What the session-level stages let through, with the accumulator they folded. -/
structure SessionPassed (inputs : RunInputs) (risk : RiskAccumulator) : Prop where
  /-- No fill, breaker or kill switch blocked the session, nor was it blocked before. -/
  start_open : inputs.startSession.submitBlocked = false
  fills : FoldsWithin inputs.envelope inputs.realizedFills inputs.startRisk risk
  breaker : inputs.breakerOpen = false
  kill_switch : inputs.envelope.killSwitch = false
  /-- The run is admitted, under the hashes any request declares. -/
  admitted : (buildAdmission inputs risk inputs.startSession.sessionId).verdict = .allow
  pins : ∀ request ∈ inputs.request, inputs.DeclaresPins request
  losses : LossesBelow inputs risk
  intent : ∀ request ∈ inputs.request, PlacesOrder inputs request

/-- What an order passed in the token loop, after the calls `loop` made there. -/
structure OrderPassed (inputs : RunInputs) (loop : List Call) (order : WireOrder) : Prop where
  caps : inputs.orderCap (placedIn loop) = none
  token : ∃ tokenId ∈ inputs.manifest.tokenUniverse,
    (∀ request ∈ inputs.request, request.intentParams.tokenId = some tokenId) ∧
    (∃ quote nowS, Call.readQuote tokenId (.ok quote) ∈ loop ∧ Call.now (.ok nowS) ∈ loop ∧
      ClearQuote quote nowS inputs.envelope.maxQuoteAgeS ∧
      (quote.tokenId = tokenId ∨ order.postOnly = true → order.tokenId = tokenId)) ∧
    ∃ verdict, checkNonCrossing (inputs.ownLegs ++
      [⟨tokenId, order.side.text, order.nativePrice, .proposed, none⟩]) inputs.tickSize =
        .ok verdict ∧ verdict.admitted = true
  size : resolveWireSize inputs.manifest inputs.envelope inputs.walletEquityAtDecision
    inputs.fixedFraction = .ok order.size
  tick : order.tickSize = inputs.tickSize

/-- An order passed every gate of its run. `pre` are the calls the run made before it: the store
verified the interlock of this session, the clock was read, and the book was found empty. -/
def PassedEveryGate (inputs : RunInputs) (pre : List Call) (order : WireOrder) : Prop :=
  ∃ bundle proof now loop risk, inputs.arming = some bundle ∧
    Armed inputs.digests inputs.manifest inputs.envelope inputs.seams.signer bundle proof ∧
    pre = .verifyInterlock (presentedBinding bundle proof inputs.startSession.sessionId)
        proof.recordingReceipt (.ok true) ::
      .now (.ok now) :: .getOrders (.ok (.list [])) :: loop ∧
    SessionPassed inputs risk ∧ OrderPassed inputs loop order

/-- What a run does: its orders pass every gate, are counted, and are acknowledged once each. -/
def LiveRun (inputs : RunInputs) (w w' : World) (r : Except PyExc DustExecutionResult) : Prop :=
  ∃ own, w'.history = w.history ++ own ∧ OrdersPass (PassedEveryGate inputs) own ∧
    ∀ result, r = .ok result → result.submittedCount = placedIn own ∧
      (submittedDecisionIds result.events).length = placedIn own ∧ NoAbsence result.events

section Run

variable {inputs : RunInputs} {gates : RunGates} {w w' : World}

theorem Harmless.calls (h : Harmless w w') :
    ∃ new, w'.history = w.history ++ new ∧ placedIn new = 0 := by
  obtain ⟨⟨new, hnew, hsubmit⟩, -⟩ := h
  refine ⟨new, hnew, List.countP_eq_zero.mpr fun call hcall => ?_⟩
  simp [hsubmit call hcall]

/-- A run that ends before its loop places no order. -/
theorem Harmless.liveRun {e : PyExc} (h : Harmless w w') : LiveRun inputs w w' (.error e) := by
  obtain ⟨new, hnew, hplaced⟩ := h.calls
  exact ⟨new, hnew, ordersPass_of_placedIn hplaced, by simp⟩

/-- The target token of a request's run. -/
theorem Decided.target_token {risk : RiskAccumulator} {admission : StrategyAuthorizationDecision}
    {tokenId : String} (h : Decided inputs risk admission gates)
    (hopen : gates.intentBlockReason = none)
    (htarget : gates.enforceIntentToken = true → gates.intentTargetToken = some tokenId) :
    ∀ request ∈ inputs.request, request.intentParams.tokenId = some tokenId := by
  intro request hrequest
  obtain hrequest : inputs.request = some request := hrequest
  have henforce : gates.enforceIntentToken = true := by
    rw [h.enforce, hopen, hrequest]
    rfl
  have hparams : gates.intentParams = request.intentParams := by
    have := h.effective
    rw [hrequest] at this
    exact (Prod.mk.inj this).2.symm
  have := htarget henforce
  rwa [h.target, if_pos henforce, hparams] at this

/-- **An order of the loop passed every gate of the run**: the session was still open at the loop,
so nothing had blocked it on the way. -/
theorem passedEveryGate {risk : RiskAccumulator} {snapshot : LifecycleEvent} {start u v : World}
    {pre : List Call} {order : WireOrder} (hmode : inputs.mode = .liveGuarded)
    (hstart : start.session = inputs.startSession)
    (htriggers : (applySafetyTriggers inputs inputs.startRisk).exec start = (.ok risk, u))
    (hdecide : (decideGates inputs risk
      (buildAdmission inputs risk inputs.startSession.sessionId)).exec u = (.ok gates, v))
    (hopenRun : (openRun inputs risk gates).exec v = (.ok snapshot, w))
    (hloop : LoopGates inputs gates w.session inputs.manifest.tokenUniverse 0 pre order) :
    ∃ opening, w.history = start.history ++ opening ∧
      PassedEveryGate inputs (opening ++ pre) order := by
  obtain ⟨tokenId, huniverse, earlier, before, rfl, htoken⟩ := hloop
  obtain ⟨hdecided, harmed⟩ := decideGates_ok hdecide
  obtain ⟨bundle, proof, hbundle, harmedBundle, rfl⟩ := harmed hmode htoken.armed
  obtain ⟨now, hhistory, hsession⟩ := openRun_unblocked hmode htoken.armed hopenRun htoken.unblocked
  have hopen : u.session.submitBlocked = false := by
    have := htoken.unblocked
    rwa [hsession, World.record_session] at this
  obtain ⟨hfills, hbreaker, hkill, rfl⟩ := applySafetyTriggers_unblocked htriggers hopen
  obtain ⟨hpins, hadmitted⟩ := authorizationBlockReason_none.mp
    (hdecided.authorization.symm.trans htoken.authorized)
  have hlosses := lossCapBlockReason_none.mp (hdecided.lossCap.symm.trans htoken.loss_within)
  have hintent := intentBlockReason_none.mp (hdecided.intent.symm.trans htoken.intent_open)
  refine ⟨_, hhistory.trans (List.append_assoc _ _ _), bundle, proof, now, earlier ++ before, risk,
    hbundle, harmedBundle, rfl,
    ⟨hstart ▸ hopen, hfills, hbreaker, hkill, hadmitted, hpins, hlosses, hintent⟩, ?_⟩
  obtain ⟨quote, nowS, hquote, hnow, hclear, hnamed⟩ := htoken.quoted
  refine ⟨?_, ⟨tokenId, huniverse, hdecided.target_token htoken.intent_open htoken.target,
    ⟨quote, nowS, by simp [hquote], by simp [hnow], hclear, hnamed⟩, htoken.uncrossed⟩, ?_,
    htoken.tick⟩
  · simpa using htoken.orders_below
  · rw [htoken.size]
    exact hdecided.wireSize

theorem submittedDecisionIds_stream {snapshot : SessionRiskSnapshot} {label : DustRunLabelEvent}
    {events : List LifecycleEvent} :
    submittedDecisionIds (.sessionRiskSnapshot snapshot :: (events ++ [.dustRunLabelEvent label])) =
      submittedDecisionIds events := by
  simp [submittedDecisionIds, LifecycleEvent.submittedDecisionId?, List.filterMap_cons]

/-- The session meta is built exactly when the number of orders is a `float`. -/
theorem exists_buildSessionMeta : (∃ sessionMeta, buildSessionMeta inputs = .ok sessionMeta) ↔
    ∃ maxOrders, (Value.int inputs.manifest.maxOrders).toFloat = .ok maxOrders := by
  unfold buildSessionMeta
  cases (Value.int inputs.manifest.maxOrders).toFloat <;>
    simp [bind, Except.bind, pure, Except.pure]

/-- **A live run.** Every order it places passed every gate, its submitted count is the number of
orders placed, and each of them is acknowledged once in its stream. -/
theorem runDustExecution_live {r : Except PyExc DustExecutionResult}
    (hmode : inputs.mode = .liveGuarded) (h : (runDustExecution inputs).exec w = (r, w')) :
    LiveRun inputs w w' r := by
  unfold runDustExecution at h
  obtain ⟨e, -, rfl, rfl⟩ | ⟨sessionMeta, -, h⟩ := Prog.exec_ofExcept_cases h
  · exact Harmless.liveRun (Std.Refl.refl _)
  let start : World := { w with session := inputs.startSession, nextSeq := 1 }
  rw [startRun, Prog.exec_bind_ok (Prog.exec_modify _)] at h
  -- the session is new, so only the calls of the stages are compared with `w`
  suffices hstart : LiveRun inputs start w' r from hstart
  obtain ⟨e, htriggers, rfl⟩ | ⟨risk, t, htriggers, h⟩ := Prog.exec_bind_cases h
  · exact ((harmless_applySafetyTriggers _).of_exec htriggers).liveRun
  have ht : Harmless start t := (harmless_applySafetyTriggers _).of_exec htriggers
  obtain ⟨e, hdecide, rfl⟩ | ⟨gates, u, hdecide, h⟩ := Prog.exec_bind_cases h
  · exact (IsTrans.trans _ _ _ ht ((quiet_decideGates _).of_exec hdecide).harmless).liveRun
  have hu : Harmless start u :=
    IsTrans.trans _ _ _ ht ((quiet_decideGates _).of_exec hdecide).harmless
  obtain ⟨e, hopen, rfl⟩ | ⟨snapshot, v, hopen, h⟩ := Prog.exec_bind_cases h
  · exact (IsTrans.trans _ _ _ hu (harmless_openRun.of_exec hopen)).liveRun
  obtain ⟨opening, hopening, hnone⟩ :=
    Harmless.calls (IsTrans.trans _ _ _ hu (harmless_openRun.of_exec hopen))
  have hgenuine := (decideGates_ok hdecide).1.genuine
  have hpass {pre : List Call} {order : WireOrder}
      (hloop : LoopGates inputs gates v.session inputs.manifest.tokenUniverse 0 pre order) :
      PassedEveryGate inputs (opening ++ pre) order := by
    obtain ⟨opening', hopening', hpassed⟩ :=
      passedEveryGate hmode rfl htriggers hdecide hopen hloop
    obtain rfl := List.append_cancel_left (hopening.symm.trans hopening')
    exact hpassed
  obtain ⟨e, hloop, rfl⟩ | ⟨⟨decisions, tokenEvents⟩, x, hloop, h⟩ := Prog.exec_bind_cases h
  · obtain ⟨-, new, hnew, -, hpasses, -⟩ := runTokens_live hmode hgenuine hloop
    exact ⟨opening ++ new, by rw [hnew, hopening, List.append_assoc], ordersPass_append.mpr
      ⟨ordersPass_of_placedIn hnone, hpasses.imp fun _ _ => hpass⟩, by simp⟩
  obtain ⟨-, new, hnew, -, hpasses, hcounts⟩ := runTokens_live hmode hgenuine hloop
  obtain ⟨hsubmitted, hacks, habsent⟩ := hcounts _ rfl
  have hfinish {r : Except PyExc (LifecycleEvent × ShutdownDecision)} {y : World}
      (hclose : (closeRun inputs).exec x = (r, y)) : ∃ closing, y.history = start.history ++
        (opening ++ new ++ closing) ∧ placedIn (opening ++ new ++ closing) = placedIn new ∧
        OrdersPass (PassedEveryGate inputs) (opening ++ new ++ closing) := by
    obtain ⟨closing, hclosing, hclosed⟩ := (harmless_closeRun.of_exec hclose).calls
    refine ⟨closing, by rw [hclosing, hnew, hopening]; simp, by simp [hnone, hclosed], ?_⟩
    exact ordersPass_append.mpr ⟨ordersPass_append.mpr
      ⟨ordersPass_of_placedIn hnone, hpasses.imp fun _ _ => hpass⟩, ordersPass_of_placedIn hclosed⟩
  obtain ⟨e, hclose, rfl⟩ | ⟨⟨label, shutdownDecision⟩, y, hclose, h⟩ := Prog.exec_bind_cases h
  · obtain ⟨closing, hy, -, hpasses⟩ := hfinish hclose
    exact ⟨_, hy, hpasses, by simp⟩
  · obtain ⟨closing, hy, hplaced, hpasses⟩ := hfinish hclose
    obtain ⟨rfl, rfl⟩ := Prod.mk.inj h
    refine ⟨_, hy, hpasses, fun result hresult => ?_⟩
    obtain rfl := Except.ok.inj hresult
    obtain ⟨snapshot, rfl⟩ := openRun_ok hopen
    obtain ⟨label, rfl⟩ := closeRun_ok hclose
    rw [hplaced]
    refine ⟨hsubmitted, (congrArg List.length submittedDecisionIds_stream).trans hacks, ?_⟩
    intro e he
    exact habsent e (by simpa using he)

/-- **The gates of a live run**: whatever the venue, the quotes and the request are, every order it
places passed every gate before it reached the wire. -/
theorem runDustExecution_gated (inputs : RunInputs) (hmode : inputs.mode = .liveGuarded)
    (w : World) : ∃ own, ((runDustExecution inputs).exec w).2.history = w.history ++ own ∧
      ∀ pre order answer post, own = pre ++ .submitOrder order answer :: post →
        PassedEveryGate inputs pre order := by
  obtain ⟨own, hown, hpasses, -⟩ := runDustExecution_live (w := w) hmode rfl
  exact ⟨own, hown, fun pre order answer post heq => hpasses pre _ post heq order answer rfl⟩

end Run

/-! ## An armed run on fixed inputs -/

namespace ArmedRun

/-- Both loss caps are finite and positive, and no order cap is enabled. -/
def envelope : PolicyEnvelope where
  maxStake := .fin 1
  maxOrdersPerRun := 0
  maxOrdersPerSession := 0
  maxOrdersPerDay := 0
  venueAllowlist := []
  marketAllowlist := []
  minEdgeBps := 0
  maxSlippageBps := 0
  maxPrice := .fin 1
  maxQuoteAgeS := 30
  cooldownS := 0
  humanApprovalThreshold := .fin 0
  maxSessionLoss := .fin 10
  maxDailyLoss := .fin 10

/-- One token, and the intents that are permitted. -/
def manifest (permittedIntentKinds : List String) : StrategyExperimentManifest where
  strategyId := "strategy"
  strategyConfigHash := "config"
  evidenceClass := .experimentalDust
  market := "market"
  tokenUniverse := ["token"]
  tokenUniverse_nonempty := by simp
  mode := .liveGuarded
  maxOrders := 1
  maxNotional := .fin 1
  maxSessionLoss := .fin 0
  maxDailyLoss := .fin 0
  sessionWindow := (0, 0)
  requiredInputs := []
  permittedIntentKinds
  marketFeeSnapshotHash := "fees"
  executionWalletBindingHash := some "binding"
  operatorAuthorization := "operator"
  forbiddenClaims := []

def digests : Digests where
  manifestHash _ := "manifest"
  policyHash _ := "policy"
  bindingHash _ := "binding"
  policyContentHash _ _ := "policy content"
  quorumContentHash _ _ := "quorum content"

/-- A venue with an empty book that answers nothing about an order. -/
def adapter : Adapter where
  getOrders := some fun _ _ => .ok (.list [])
  getOrder := none
  getFillHistory := none
  cancelAllOrders := some fun _ _ => .ok 0
  cancelSingleOrder := none
  textOf _ := ""

/-- A source that quotes one half for the token `named`, whichever it is asked for. -/
def seams (named : String) : Seams where
  adapter := adapter
  signer := ⟨.privyEvm, fun _ _ => .ok "digest"⟩
  readQuote _ _ := .ok
    { tokenId := named, quoteTsS := 0, bid := some ⟨.fin (1 / 2), .fin 1⟩,
      ask := some ⟨.fin (1 / 2), .fin 1⟩ }
  nowFn _ _ := .ok 0
  clockMs _ := 0

/-- A request for the token, under the hashes of the run. -/
def request (intentKind : IntentKind) : MMExecutionToolRequest where
  intentKind
  intentParams := { tokenId := some "token" }
  strategyId := "strategy"
  strategyConfigHash := "config"
  policyHash := "policy"
  sessionId := "session"
  manifestHash := "manifest"
  evidenceClass := .experimentalDust
  mode := .liveGuarded

/-- An armed live run whose quotes name the token `named`. -/
def inputs (permittedIntentKinds : List String) (request : Option MMExecutionToolRequest)
    (named : String) : RunInputs where
  digests := digests
  seams := seams named
  envelope := envelope
  manifest := manifest permittedIntentKinds
  mode := .liveGuarded
  walletEquityAtDecision := .fin 100
  fixedFraction := .fin (1 / 100)
  request
  arming := some arming
  operatorInterlockStore := some ⟨fun _ _ => .ok "receipt", fun _ _ => .ok true⟩

/-- Nothing was asked before the run. -/
def start : World := ⟨[], { sessionId := "" }, 1⟩

end ArmedRun

/-- The tokens of the orders of some calls. -/
def orderedTokens (calls : List Call) : List String :=
  calls.filterMap fun
    | .submitOrder order _ => some order.tokenId
    | _ => none

/-- The armed run places its one order, after it has passed every gate. -/
theorem runDustExecution_gated_armed :
    orderedTokens ((runDustExecution (ArmedRun.inputs [] none "token")).exec
      ArmedRun.start).2.history = ["token"] ∧
    ∃ own, ((runDustExecution (ArmedRun.inputs [] none "token")).exec ArmedRun.start).2.history =
        ArmedRun.start.history ++ own ∧
      ∀ pre order answer post, own = pre ++ .submitOrder order answer :: post →
        PassedEveryGate (ArmedRun.inputs [] none "token") pre order :=
  ⟨by decide +kernel, runDustExecution_gated _ rfl _⟩

/-- A run without a request takes, though the manifest permits no intent at all; and a taker's order
is for the token its quote names, whatever the request's token is. -/
theorem runDustExecution_takes_unpermitted :
    (orderedTokens ((runDustExecution (ArmedRun.inputs [] none "token")).exec
        ArmedRun.start).2.history = ["token"] ∧
      (effectiveIntent none).1.text ∉ (ArmedRun.manifest []).permittedIntentKinds) ∧
    (orderedTokens ((runDustExecution (ArmedRun.inputs ["take"] (some (ArmedRun.request .take))
        "other")).exec ArmedRun.start).2.history = ["other"] ∧
      (ArmedRun.request .take).intentParams.tokenId = some "token") := by
  decide +kernel


end Veridex.DustExecution
