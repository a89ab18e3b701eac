import Veridex.DustExecution.Runner

/-!
# The tool boundary (`dust_execution/facade.py`)

`proposeMMExecution` takes an agent's request to the runner. It loads the durable state of the
session, reserves a slot for the attempt before any order can be placed, binds the operator's
interlock to the arming bundle, runs, and settles the slot with what the run's own events say. A
call that may not run returns early, under reason codes of its own.

A `FacadeWorld` adds to the runner's world the provider, where one is injected, and the telemetry
sent so far. The provider is the one of `session_state.py`; a durable one may also be down, and then
raises before it acts (`ProviderOutage`).
-/

namespace Veridex.DustExecution

open Veridex.Py Veridex.Policy Veridex.Lib

/-! ## What is returned -/

/-- `Admission`. -/
inductive Admission where
  | approved
  | denied
  | requiresHuman
  deriving DecidableEq, Repr

/-- `ExecutionStatus`. -/
inductive ExecutionStatus where
  | submitted
  | abstained
  | notArmed
  | denied
  deriving DecidableEq, Repr

/-- `MMExecutionToolResult`. Its three other labels are pinned to one literal each. -/
structure MMExecutionToolResult where
  admission : Admission
  reasonCodes : List String
  executionStatus : ExecutionStatus := .abstained
  executionReasonCodes : List String := []
  lifecycleReceiptRef : String
  evidenceClass : EvidenceClass
  policyHash : String
  deriving DecidableEq, Repr

/-- The literal of an abstain reason. -/
def AbstainReason.text : AbstainReason → String
  | staleQuoteAge => "stale_quote_age"
  | staleSource => "stale_source"
  | eventSuspended => "event_suspended"
  | noQuote => "no_quote"
  | missingBookSide => "missing_book_side"
  | negativeLiquidity => "negative_liquidity"
  | selfCross => "self_cross"
  | safetyBlocked => "safety_blocked"
  | modeANoOrders => "mode_a_no_orders"
  | manifestHashMismatch => "manifest_hash_mismatch"
  | admissionDenied => "admission_denied"
  | modeBNotArmed => "mode_b_not_armed"
  | modeBLegacySigner => "mode_b_legacy_signer"
  | modeBWritePortMissing => "mode_b_write_port_missing"
  | operatorInterlockUnproven => "operator_interlock_unproven"
  | intentNoQuote => "intent_no_quote"
  | intentCancelAll => "intent_cancel_all"
  | intentNotPermitted => "intent_not_permitted"
  | intentParamsInvalid => "intent_params_invalid"
  | intentTokenMismatch => "intent_token_mismatch"
  | cancelReplaceOldOrderLive => "cancel_replace_old_order_live"
  | orderCapRun => "order_cap_run"
  | orderCapSession => "order_cap_session"
  | orderCapDay => "order_cap_day"
  | lossCapSession => "loss_cap_session"
  | lossCapDay => "loss_cap_day"

/-! ## The operator's interlock -/

/-- `OperatorInterlock`. -/
structure OperatorInterlock where
  isolatedFundedWallet : Bool := false
  operatorJurisdictionComfort : Bool := false
  declaredMaxCapitalAtRisk : Option PyFloat := none
  killSwitchReady : Bool := false
  firstOrderAuthorized : Bool := false
  operatorAuthorizationRef : Option String := none
  deriving DecidableEq, Repr

/-- `satisfied_by_precondition`. The capital at risk counts when it is positive. -/
def OperatorInterlock.satisfiedByPrecondition (interlock : OperatorInterlock) :
    List (String × Bool) :=
  [("isolated_funded_wallet", interlock.isolatedFundedWallet),
    ("operator_jurisdiction_comfort", interlock.operatorJurisdictionComfort),
    ("declared_max_capital_at_risk",
      interlock.declaredMaxCapitalAtRisk.any fun capital => (PyFloat.fin 0).lt capital),
    ("kill_switch_ready", interlock.killSwitchReady),
    ("first_order_authorized", interlock.firstOrderAuthorized)]

/-- `OperatorInterlockGate`. -/
structure OperatorInterlockGate where
  armed : Bool
  missing : List String
  events : List OperatorInterlockEvent
  deriving DecidableEq, Repr

/-- `evaluate_operator_interlock`: an interlock that is not there satisfies nothing. -/
def evaluateOperatorInterlock (interlock : Option OperatorInterlock) (recvTsMs : ℤ) :
    OperatorInterlockGate :=
  let effective := interlock.getD {}
  let satisfied (name : String) : Bool := (effective.satisfiedByPrecondition.lookup name).getD false
  let missing := operatorPreconditions.filter fun name => !satisfied name
  { armed := missing.isEmpty
    missing
    events := (operatorPreconditions.zipIdx 1).map fun (name, index) =>
      { sequenceNo := index, sourceTs := none, recvTs := recvTsMs, precondition := name,
        satisfied := satisfied name,
        operatorAuthorizationRef := effective.operatorAuthorizationRef,
        firstOrderAuthorized := effective.firstOrderAuthorized } }

/-- The reference the events carry. -/
def OperatorInterlockGate.operatorAuthRef (gate : OperatorInterlockGate) : Option String :=
  gate.events.head?.bind OperatorInterlockEvent.operatorAuthorizationRef

/-! ## Telemetry (`runtime/runtime_events.py`) -/

/-- `RuntimeStatus`, as far as the facade reports it. -/
inductive RuntimeStatus where
  | running
  | completed
  deriving DecidableEq, Repr

/-- The type of an event with its payload. -/
inductive RuntimePayload where
  | runStarted (intentKind : IntentKind) (mode : ExecutionMode)
  | statusChanged (status : RuntimeStatus)
  | actionEmitted (admission : Admission) (executionStatus : ExecutionStatus)
      (intentKind : IntentKind)
  | runCompleted (status : RuntimeStatus) (admission : Admission) (reasonCodes : List String)
      (executionStatus : ExecutionStatus) (executionReasonCodes : List String)
      (lifecycleReceiptRef : String) (sessionStatus : String) (submittedCount : ℕ)
  deriving DecidableEq, Repr

/-- `RuntimeEvent`, without the wall-clock time it stamps itself with. -/
structure RuntimeEvent where
  payload : RuntimePayload
  agentId : String
  runId : Option String
  sessionId : String
  deriving DecidableEq, Repr

/-- `RuntimeEventSink`: it sees what was sent before. -/
abbrev RuntimeEventSink := List RuntimeEvent → RuntimeEvent → Except PyExc Unit

/-! ## What a call is given -/

/-- What `_reservation_attempt_id` hashes. -/
structure AttemptFingerprint where
  sessionId : String
  intentKind : IntentKind
  intentParams : MMIntentParams
  manifestHash : String
  policyHash : String
  strategyConfigHash : String
  mode : ExecutionMode
  deriving DecidableEq

/-- What `_lifecycle_receipt_ref` hashes. The content hash of the session is not written yet. -/
structure LifecycleFingerprint where
  sessionId : String
  mode : ExecutionMode
  manifestHash : String
  policyHash : String
  sequenceNos : List ℕ
  deriving DecidableEq

/-- The two references the facade derives: sixteen digits of a hash of canonical JSON. -/
structure ReferenceDigests where
  attempt : AttemptFingerprint → String
  lifecycle : LifecycleFingerprint → String

/-- What a method of the provider raises before it acts: nothing, unless the store is down. -/
structure ProviderOutage where
  load : Option PyExc := none
  reserveOrFreeze : Option PyExc := none
  settle : Option PyExc := none

/-- The arguments of `propose_mm_execution` but for the provider. -/
structure ProposeInputs where
  request : MMExecutionToolRequest
  digests : Digests
  references : ReferenceDigests
  seams : Seams
  envelope : PolicyEnvelope
  manifest : StrategyExperimentManifest
  walletEquityAtDecision : PyFloat
  fixedFraction : PyFloat
  arming : Option ModeBArming := none
  operatorInterlock : Option OperatorInterlock := none
  interlockStore : Option OperatorInterlockStore := none
  outage : ProviderOutage := {}
  eventSink : Option RuntimeEventSink := none
  agentId : String := "dust-execution-mm"
  runId : Option String := none

/-- The runner's world, the provider where one is injected, and the telemetry sent. -/
structure FacadeWorld where
  lane : World
  provider : Option Provider
  telemetry : List RuntimeEvent := []

/-- A computation of the facade. -/
abbrev Facade (α : Type) : Type := Prog FacadeWorld PyExc α

/-- A computation of the lane, in the facade. -/
def inLane {α : Type} (m : Lane α) : Facade α :=
  Prog.zoom FacadeWorld.lane (fun lane w => { w with lane := lane }) m

/-- The event a call sends. -/
def ProposeInputs.event (inputs : ProposeInputs) (payload : RuntimePayload) : RuntimeEvent :=
  ⟨payload, inputs.agentId, inputs.runId, inputs.request.sessionId⟩

/-- `_emit`: the event is sent whether the sink accepts it or raises. -/
def emit (inputs : ProposeInputs) (payload : RuntimePayload) : Facade Unit :=
  match inputs.eventSink with
  | none => return ()
  | some sink => do
    let w ← get
    modify fun w => { w with telemetry := w.telemetry ++ [inputs.event payload] }
    Prog.ofExcept (sink w.telemetry (inputs.event payload))

/-! ## Returning -/

/-- The end of every call: two last events, and the result. -/
def finish (inputs : ProposeInputs) (result : MMExecutionToolResult) (sessionStatus : String)
    (submittedCount : ℕ) : Facade MMExecutionToolResult := do
  emit inputs (.actionEmitted result.admission result.executionStatus inputs.request.intentKind)
  emit inputs (.runCompleted .completed result.admission result.reasonCodes result.executionStatus
    result.executionReasonCodes result.lifecycleReceiptRef sessionStatus submittedCount)
  return result

/-- What a call returns that does not reach the runner. -/
structure EarlyReturn where
  admission : Admission := .denied
  reasonCode : String
  executionStatus : ExecutionStatus := .notArmed
  executionReasonCodes : List String := ["mode_b_not_armed"]
  /-- The end of the receipt reference. -/
  receipt : String
  sessionStatus : String := "FAILED"
  submittedCount : ℕ := 0
  deriving DecidableEq, Repr

/-- `_fail_closed_no_durable_state`. -/
def failClosedNoDurableState : EarlyReturn where
  reasonCode := "durable_session_state_unavailable"
  receipt := "no-durable-session-state"

/-- `_fail_closed_session_identity_mismatch`. -/
def failClosedSessionIdentityMismatch : EarlyReturn where
  reasonCode := "durable_session_identity_mismatch"
  receipt := "session-identity-mismatch"

/-- `_fail_closed_envelope_loss_cap`. -/
def failClosedEnvelopeLossCap : EarlyReturn where
  reasonCode := "mode_b_loss_cap_unset"
  receipt := "mode-b-loss-cap-unset"

/-- `_fail_closed_reservation_failed`. -/
def failClosedReservationFailed : EarlyReturn where
  reasonCode := "durable_reservation_failed"
  receipt := "reservation-failed"

/-- `_freeze_pending_reconciliation`. -/
def freezePendingReconciliation : EarlyReturn where
  reasonCode := "attempt_pending_reconciliation"
  receipt := "attempt-pending-reconciliation"

/-- A cap's refusal denies on both axes, and its reason is the end of the receipt reference. -/
def denyCap (reason : String) : EarlyReturn where
  reasonCode := reason
  executionStatus := .denied
  executionReasonCodes := [reason]
  receipt := reason

/-- `_deny_order_cap`. -/
def denyOrderCap (reason : String) : EarlyReturn := denyCap reason

/-- `_deny_loss_cap`. -/
def denyLossCap (reason : String) : EarlyReturn := denyCap reason

/-- `_idempotent_committed_result`. -/
def idempotentCommittedResult : EarlyReturn where
  admission := .approved
  reasonCode := "idempotent_committed_replay"
  executionStatus := .submitted
  executionReasonCodes := []
  receipt := "idempotent-committed-replay"
  sessionStatus := "COMPLETED"
  submittedCount := 1

/-- An early return. -/
def returnEarly (inputs : ProposeInputs) (early : EarlyReturn) : Facade MMExecutionToolResult :=
  finish inputs
    { admission := early.admission
      reasonCodes := [early.reasonCode]
      executionStatus := early.executionStatus
      executionReasonCodes := early.executionReasonCodes
      lifecycleReceiptRef := "dust-lifecycle:" ++ inputs.request.sessionId ++ ":" ++ early.receipt
      evidenceClass := .experimentalDust
      policyHash := inputs.digests.policyHash inputs.envelope }
    early.sessionStatus early.submittedCount

/-- The `sequence_no` of an event. -/
def LifecycleEvent.sequenceNo : LifecycleEvent → ℕ
  | .sessionRiskSnapshot e => e.sequenceNo
  | .orderSubmitIntent e => e.sequenceNo
  | .orderSubmitAttempt e => e.sequenceNo
  | .orderAckEvent e => e.sequenceNo
  | .orderCancelEvent e => e.sequenceNo
  | .orderStatusEvent e => e.sequenceNo
  | .realFillReconciliation e => e.sequenceNo
  | .dustRunLabelEvent e => e.sequenceNo

/-- `_lifecycle_receipt_ref`. -/
def lifecycleReceiptRef (references : ReferenceDigests) (result : DustExecutionResult) : String :=
  let sessionMeta := result.sessionMeta
  "dust-lifecycle:" ++ sessionMeta.sessionId ++ ":" ++ references.lifecycle
    ⟨sessionMeta.sessionId, result.mode, sessionMeta.manifestHash, sessionMeta.policyHash,
      result.events.map LifecycleEvent.sequenceNo⟩

/-- `_terminal_label`. -/
def terminalLabel (events : List LifecycleEvent) : Option DustRunLabelEvent :=
  events.reverse.findSome? fun
    | .dustRunLabelEvent e => some e
    | _ => none

/-- `_execution_disposition`: the reasons once each, in the order they are first seen. -/
def executionDisposition (result : DustExecutionResult) (admission : Admission) :
    ExecutionStatus × List AbstainReason :=
  let reasonCodes := (result.decisions.filterMap SubmitDecision.abstainReason).eraseDups
  if admission = .denied then (.denied, reasonCodes)
  else if 0 < result.submittedCount then (.submitted, reasonCodes)
  else if reasonCodes.any (· ∈ [.modeBNotArmed, .operatorInterlockUnproven]) then
    (.notArmed, reasonCodes)
  else (.abstained, reasonCodes)

/-- `_to_tool_result`. -/
def toToolResult (references : ReferenceDigests) (result : DustExecutionResult) :
    MMExecutionToolResult :=
  let admission := if result.admission.verdict = .allow then .approved else .denied
  let (executionStatus, executionReasonCodes) := executionDisposition result admission
  { admission
    reasonCodes := result.admission.reasonCodes
    executionStatus
    executionReasonCodes := executionReasonCodes.map AbstainReason.text
    lifecycleReceiptRef := lifecycleReceiptRef references result
    evidenceClass := ((terminalLabel result.events).map DustRunLabelEvent.evidenceClass).getD
      .experimentalDust
    policyHash := result.admission.policyHash }

/-! ## Admitting the call -/

/-- `_reservation_attempt_id`. -/
def ProposeInputs.attemptId (inputs : ProposeInputs) : String :=
  let request := inputs.request
  "dust-attempt:" ++ request.sessionId ++ ":" ++ inputs.references.attempt
    ⟨request.sessionId, request.intentKind, request.intentParams, request.manifestHash,
      request.policyHash, request.strategyConfigHash, request.mode⟩

/-- A method of the provider is up, or raises. -/
def ProviderOutage.check : Option PyExc → Except PyExc Unit
  | none => .ok ()
  | some e => .error e

/-- The durable state, where a provider is injected. -/
def loadDurableState (inputs : ProposeInputs) (now : DateTime) :
    Facade (Option DurableSessionState) := do
  let w ← get
  match w.provider with
  | none => return none
  | some provider => do
    Prog.ofExcept (ProviderOutage.check inputs.outage.load)
    return some (← Prog.ofExcept (provider.load inputs.request.sessionId now))

/-- The provider did not adopt the identity the operator assigned. -/
def identityMismatch (request : MMExecutionToolRequest) (state : DurableSessionState) : Bool :=
  state.sessionIdentity = "" || state.sessionIdentity ≠ request.sessionId ||
    state.risk.sessionId ≠ request.sessionId

/-- The early returns before the reservation, in order. -/
def admissionReturn (inputs : ProposeInputs) (durableState : Option DurableSessionState) :
    Option EarlyReturn :=
  let live := inputs.request.mode = .liveGuarded
  if live ∧ durableState = none then some failClosedNoDurableState
  else if durableState.any (identityMismatch inputs.request) then
    some failClosedSessionIdentityMismatch
  else if live ∧ !passes (authorizeModeB inputs.envelope) then some failClosedEnvelopeLossCap
  else none

/-- The identity the runner runs under. -/
def ProposeInputs.sessionIdentity (inputs : ProposeInputs)
    (durableState : Option DurableSessionState) : String :=
  match durableState with
  | some state => state.sessionIdentity
  | none => provisionalSessionId inputs.manifest inputs.request.mode

/-- The caps the reservation is made under. -/
def ProposeInputs.reservationCaps (inputs : ProposeInputs) : ReservationCaps where
  maxOrdersPerSession := inputs.envelope.maxOrdersPerSession
  maxOrdersPerDay := inputs.envelope.maxOrdersPerDay
  maxSessionLoss := inputs.manifest.maxSessionLoss
  maxDailyLoss := inputs.manifest.maxDailyLoss
  envelopeMaxSessionLoss := inputs.envelope.maxSessionLoss
  envelopeMaxDailyLoss := inputs.envelope.maxDailyLoss

/-- The early return of a reservation's outcome. -/
def reservationReturn : ScopedReservationOutcome → Option EarlyReturn
  | .scopeFrozen | .pendingReconcile => some freezePendingReconciliation
  | .capExceededSession => some (denyOrderCap "order_cap_session")
  | .capExceededDay => some (denyOrderCap "order_cap_day")
  | .lossCapExceededSession => some (denyLossCap "session_loss_over_max")
  | .lossCapExceededDay => some (denyLossCap "daily_loss_over_max")
  | .committed => some idempotentCommittedResult
  | .reserved => none

/-- The slot is reserved, where a provider is injected. -/
def reserveAttempt (inputs : ProposeInputs) (now : DateTime) (sessionIdentity : String) :
    Facade (Option EarlyReturn) := do
  let w ← get
  match w.provider with
  | none => return none
  | some provider =>
    let reserved := do
      ProviderOutage.check inputs.outage.reserveOrFreeze
      provider.reserveOrFreeze sessionIdentity now inputs.attemptId inputs.reservationCaps
    match reserved with
    | .error e => if e.isException then return some failClosedReservationFailed else throw e
    | .ok (outcome, provider) => do
      modify fun w => { w with provider := some provider }
      return reservationReturn outcome

/-! ## Arming the call -/

/-- What the interlock's receipt is bound to. -/
def interlockBinding (arming : ModeBArming) (gate : OperatorInterlockGate)
    (sessionIdentity : String) : InterlockBinding :=
  ⟨sessionIdentity, gate.events, gate.operatorAuthRef, armingAttemptRef arming⟩

/-- The store to record a gate in: an armed gate's events are recorded when they are canonical. -/
def recordingStore (inputs : ProposeInputs) (gate : OperatorInterlockGate) :
    Option OperatorInterlockStore :=
  if gate.armed && interlockEventsAreCanonical gate.events then inputs.interlockStore else none

/-- The arming bundle with the proof of a recorded interlock. -/
def bindProof (arming : ModeBArming) (gate : OperatorInterlockGate) (receipt : String) :
    ModeBArming :=
  { arming with operatorInterlock := some ⟨true, receipt, gate.events, gate.operatorAuthRef⟩ }

/-- `effective_arming`: a live bundle is withheld unless its interlock is satisfied and recorded. -/
def effectiveArming (inputs : ProposeInputs) (sessionIdentity : String) :
    Facade (Option ModeBArming) :=
  match inputs.arming with
  | none => return none
  | some arming =>
    if inputs.request.mode = .liveGuarded then do
      let now ← inLane (nowS inputs.seams)
      let gate := evaluateOperatorInterlock inputs.operatorInterlock (now * 1000)
      match recordingStore inputs gate with
      | none => return none
      | some store => do
        let binding := interlockBinding arming gate sessionIdentity
        let receipt ← inLane (ask store.record binding (.recordInterlock binding))
        return some (bindProof arming gate receipt)
    else return some arming

/-! ## The call -/

/-- What the runner is called with. -/
def ProposeInputs.runInputs (inputs : ProposeInputs) (durableState : Option DurableSessionState)
    (arming : Option ModeBArming) : RunInputs where
  digests := inputs.digests
  seams := inputs.seams
  envelope := inputs.envelope
  manifest := inputs.manifest
  mode := inputs.request.mode
  walletEquityAtDecision := inputs.walletEquityAtDecision
  fixedFraction := inputs.fixedFraction
  request := some inputs.request
  arming := arming
  operatorInterlockStore := inputs.interlockStore
  sessionIdentity := some (inputs.sessionIdentity durableState)
  risk := durableState.map DurableSessionState.risk
  priorSessionOrderCount := (durableState.map DurableSessionState.priorSessionOrderCount).getD 0
  priorDayOrderCount := (durableState.map DurableSessionState.priorDayOrderCount).getD 0

/-- The slot is settled with the outcome of the run. An `Exception` of the store is suppressed. -/
def settleAttempt (inputs : ProposeInputs) (result : DustExecutionResult) : Facade Unit := do
  let w ← get
  match w.provider with
  | none => return ()
  | some provider =>
    match inputs.outage.settle with
    | some e => if e.isException then return () else throw e
    | none =>
      let (reconState, venueOrderKey) := reconciliationOutcome result.events
      modify fun w =>
        { w with provider := some (provider.settle inputs.attemptId reconState venueOrderKey) }

/-- The literal of a session status. -/
def SessionStatus.text : SessionStatus → String
  | success => "SUCCESS"
  | failed => "FAILED"

/-- The call from its reservation on. -/
def runReserved (inputs : ProposeInputs) (durableState : Option DurableSessionState) :
    Facade MMExecutionToolResult := do
  let arming ← effectiveArming inputs (inputs.sessionIdentity durableState)
  let result ← inLane (runDustExecution (inputs.runInputs durableState arming))
  settleAttempt inputs result
  finish inputs (toToolResult inputs.references result) result.sessionOutcome.status.text
    result.submittedCount

/-- `propose_mm_execution`. -/
def proposeMMExecution (inputs : ProposeInputs) : Facade MMExecutionToolResult := do
  emit inputs (.runStarted inputs.request.intentKind inputs.request.mode)
  emit inputs (.statusChanged .running)
  let now ← inLane (nowS inputs.seams)
  let nowDt ← Prog.ofExcept (DateTime.fromTimestampMs (now * 1000))
  let durableState ← loadDurableState inputs nowDt
  match admissionReturn inputs durableState with
  | some early => returnEarly inputs early
  | none => do
    match ← reserveAttempt inputs nowDt (inputs.sessionIdentity durableState) with
    | some early => returnEarly inputs early
    | none => runReserved inputs durableState

end Veridex.DustExecution
