import Veridex.DustExecution.Venue

/-!
# Arming Mode B (`runner.py`, lines 1189-1310, and the modules it consults)

A live run places orders only when every precondition of its arming bundle holds: Mode A passed, the
write-contract gate and the two operator preflights are positive, the envelope caps are real, the
wallet binding is the pinned one and the live policy and quorum match it, the signer is not the
offline fake, a write port and an authorization are present, and the operator interlock is
canonical and verified by the store that issued its receipt.

`modeBArmingBlockReason` returns the first precondition that fails. `Armed` collects what holds when
none does, and `modeBArmingBlockReason_none` says that the run then asked the store and was told the
receipt is its own.
-/

namespace Veridex.DustExecution

open Veridex.Py Veridex.Policy Veridex.Lib

/-- `AbstainReason`. -/
inductive AbstainReason where
  | staleQuoteAge
  | staleSource
  | eventSuspended
  | noQuote
  | missingBookSide
  | negativeLiquidity
  | selfCross
  | safetyBlocked
  | modeANoOrders
  | manifestHashMismatch
  | admissionDenied
  | modeBNotArmed
  | modeBLegacySigner
  | modeBWritePortMissing
  | operatorInterlockUnproven
  | intentNoQuote
  | intentCancelAll
  | intentNotPermitted
  | intentParamsInvalid
  | intentTokenMismatch
  | cancelReplaceOldOrderLive
  | orderCapRun
  | orderCapSession
  | orderCapDay
  | lossCapSession
  | lossCapDay
  deriving DecidableEq, Repr

/-! ## Custody (`wallet_binding.py`, `privy_control_plane.py`) -/

/-- `PolicyEffect`. -/
inductive PolicyEffect where
  | allow
  | deny
  deriving DecidableEq, Repr

/-- The literal of an effect. -/
def PolicyEffect.text : PolicyEffect → String
  | allow => "ALLOW"
  | deny => "DENY"

/-- `PolicyRule`. -/
structure PolicyRule where
  method : String
  primaryType : String
  effect : PolicyEffect
  deriving DecidableEq, Repr

/-- `PolicyOwnerType`. -/
inductive PolicyOwnerType where
  | quorum
  | appSecret
  deriving DecidableEq, Repr

/-- `PrivyWalletPolicy`. -/
structure PrivyWalletPolicy where
  rules : List PolicyRule
  defaultAction : PolicyEffect
  ownerType : PolicyOwnerType
  deriving DecidableEq, Repr

/-- `AuthorizationQuorum`. -/
structure AuthorizationQuorum where
  quorumRef : String
  authorizationKeyRefs : List String
  threshold : ℤ
  deriving DecidableEq, Repr

/-- `CHAIN_ID_POLYGON`. -/
def chainIdPolygon : String := "eip155:137"

/-- `ALLOWED_SIGN_METHOD`. -/
def allowedSignMethod : String := "eth_signTypedData_v4"

/-- The order of the sorted rules: method, then primary type, then effect. -/
def ruleLe (a b : String × String × String) : Bool :=
  decide (a.1 < b.1) || (a.1 == b.1 &&
    (decide (a.2.1 < b.2.1) || (a.2.1 == b.2.1 && decide (a.2.2 ≤ b.2.2))))

namespace PrivyWalletPolicy

/-- `content_hash`: the rules and the default action, not the owner. -/
def contentHash (digests : Digests) (policy : PrivyWalletPolicy) : String :=
  digests.policyContentHash policy.defaultAction.text
    ((policy.rules.map fun r => (r.method, r.primaryType, r.effect.text)).mergeSort ruleLe)

/-- The pairs the policy allows. -/
def allowed (policy : PrivyWalletPolicy) : List (String × String) :=
  (policy.rules.filter fun r => r.effect = .allow).map fun r => (r.method, r.primaryType)

/-- `is_typed_data_only_default_deny`. -/
def isTypedDataOnlyDefaultDeny (policy : PrivyWalletPolicy) : Bool :=
  let expected := [(allowedSignMethod, "Order"), (allowedSignMethod, "ClobAuth")]
  policy.defaultAction = .deny &&
    !(policy.rules.any fun r => r.effect = .allow && r.method != allowedSignMethod) &&
    policy.allowed.all (· ∈ expected) && expected.all (· ∈ policy.allowed)

end PrivyWalletPolicy

/-- `AuthorizationQuorum.content_hash`. -/
def AuthorizationQuorum.contentHash (digests : Digests) (quorum : AuthorizationQuorum) : String :=
  digests.quorumContentHash quorum.threshold
    (quorum.authorizationKeyRefs.mergeSort fun a b => a ≤ b)

/-- `ExecutionWalletBinding.binding_hash`: the address is lower-cased first. -/
def ExecutionWalletBinding.bindingHash (digests : Digests) (binding : ExecutionWalletBinding) :
    String :=
  digests.bindingHash { binding with walletAddress := lower binding.walletAddress }

/-- A check that fails closed. -/
def failClosedUnless (ok : Bool) (msg : String) : Except PyExc Unit :=
  if ok then .ok () else .error ⟨.failClosed, msg⟩

@[simp] theorem failClosedUnless_ok {ok : Bool} {msg : String} :
    failClosedUnless ok msg = .ok () ↔ ok = true := by
  cases ok <;> simp [failClosedUnless]

/-- `execute_with`. -/
def executeWith (digests : Digests) (manifest : StrategyExperimentManifest)
    (liveBinding : ExecutionWalletBinding) : Except PyExc Unit :=
  match manifest.executionWalletBindingHash with
  | none => .error ⟨.failClosed, "Mode-B manifest is missing execution_wallet_binding_hash"⟩
  | some pinned => failClosedUnless (liveBinding.bindingHash digests = pinned)
      "live execution-wallet binding hash does not match the pinned manifest field"

/-- `arm_mode_b`. -/
def armModeB (digests : Digests) (binding : ExecutionWalletBinding)
    (livePolicy : Option PrivyWalletPolicy) (liveQuorum : Option AuthorizationQuorum) :
    Except PyExc Unit :=
  match livePolicy, liveQuorum with
  | none, _ => .error ⟨.failClosed, "arm_mode_b requires a LIVE policy observation"⟩
  | _, none => .error ⟨.failClosed, "arm_mode_b requires a LIVE quorum observation"⟩
  | some policy, some quorum => do
    failClosedUnless (binding.chainId = chainIdPolygon) "binding.chain_id must be eip155:137"
    failClosedUnless (policy.contentHash digests = binding.privyPolicyContentHash)
      "live Privy policy CONTENT hash does not match the pinned binding hash"
    failClosedUnless policy.isTypedDataOnlyDefaultDeny
      "live Privy policy is not typed-data-only default-deny"
    failClosedUnless (policy.ownerType = .quorum) "Privy policy resource is not quorum-owned"
    failClosedUnless (quorum.quorumRef = binding.authorizationQuorumRef)
      "live authorization quorum ref does not match the pinned binding"
    failClosedUnless (quorum.contentHash digests = binding.authorizationQuorumContentHash)
      "live authorization quorum CONTENT hash does not match the pinned binding"
    failClosedUnless (binding.quorumThreshold = quorum.threshold)
      "pinned binding.quorum_threshold does not equal the live quorum threshold"

/-! ## The operator interlock (`contracts.py`, `operator_interlock_store.py`) -/

/-- `OPERATOR_PRECONDITIONS`. -/
def operatorPreconditions : List String :=
  ["isolated_funded_wallet", "operator_jurisdiction_comfort", "declared_max_capital_at_risk",
    "kill_switch_ready", "first_order_authorized"]

/-- The event records its precondition as satisfied, in its place, under the given reference. -/
def OperatorInterlockEvent.canonical (ref : Option String) (event : OperatorInterlockEvent)
    (sequenceNo : ℕ) (precondition : String) : Bool :=
  event.precondition = precondition && event.sequenceNo = sequenceNo && event.satisfied &&
    event.firstOrderAuthorized && event.operatorAuthorizationRef = ref

/-- `interlock_events_are_canonical`: the five preconditions in order, all satisfied, under one
reference that is neither missing nor empty. -/
def interlockEventsAreCanonical (events : List OperatorInterlockEvent) : Bool :=
  match events with
  | [] => false
  | first :: _ =>
    events.length = operatorPreconditions.length &&
      first.operatorAuthorizationRef.any (· ≠ "") &&
      ((events.zip operatorPreconditions).zipIdx 1).all fun entry =>
        entry.1.1.canonical first.operatorAuthorizationRef entry.2 entry.1.2

/-- `OperatorInterlockProof`. -/
structure OperatorInterlockProof where
  satisfied : Bool
  recordingReceipt : String
  events : List OperatorInterlockEvent := []
  operatorAuthorizationRef : Option String := none
  deriving DecidableEq, Repr

/-! ## The bundle -/

/-- `Clobv2GateResult` (`clobv2_gate.py`). -/
structure Clobv2GateResult where
  supportedClient : Bool
  fixturesMatch : Bool
  cancelVerified : Bool
  getOrdersVerified : Bool
  operatorSmokeOk : Option Bool
  deriving DecidableEq, Repr

/-- `machine_ok`. -/
def Clobv2GateResult.machineOk (gate : Clobv2GateResult) : Bool :=
  gate.supportedClient && gate.fixturesMatch && gate.cancelVerified && gate.getOrdersVerified

/-- `mode_b_admitted`. -/
def Clobv2GateResult.modeBAdmitted (gate : Clobv2GateResult) : Bool :=
  gate.machineOk && gate.operatorSmokeOk = some true

/-- `ModeBArming`. Of the two preflight verdicts only `ok` is read. -/
structure ModeBArming where
  modeAPassed : Bool
  clobv2Gate : Clobv2GateResult
  privyPreflightOk : Option Bool
  provisioningOk : Option Bool
  binding : ExecutionWalletBinding
  livePolicy : PrivyWalletPolicy
  liveQuorum : AuthorizationQuorum
  operatorInterlock : Option OperatorInterlockProof := none
  writePort : Option ModeBWritePort := none
  orderAuth : Option PrivyAuthContext := none

/-- `_arming_attempt_ref`. -/
def armingAttemptRef (arming : ModeBArming) : String :=
  match arming.orderAuth with
  | some auth => auth.idempotencyKey
  | none => ""

/-- What the runner presents to the store. -/
def presentedBinding (arming : ModeBArming) (proof : OperatorInterlockProof) (sessionId : String) :
    InterlockBinding :=
  ⟨sessionId, proof.events, proof.operatorAuthorizationRef, armingAttemptRef arming⟩

/-- A check under `except FailClosed`. Every check here fails closed, so nothing else is raised. -/
def passes (check : Except PyExc Unit) : Bool :=
  match check with
  | .ok _ => true
  | .error _ => false

@[simp] theorem passes_iff {check : Except PyExc Unit} : passes check = true ↔ check = .ok () := by
  cases check <;> simp [passes]

/-- The preconditions before the interlock, in order. -/
def technicalBlockReason (digests : Digests) (arming : ModeBArming)
    (manifest : StrategyExperimentManifest) (envelope : PolicyEnvelope) (signer : Signer) :
    Option AbstainReason :=
  if !arming.modeAPassed then some .modeBNotArmed
  else if !arming.clobv2Gate.modeBAdmitted then some .modeBNotArmed
  else if arming.privyPreflightOk ≠ some true then some .modeBNotArmed
  else if arming.provisioningOk ≠ some true then some .modeBNotArmed
  else if !passes (authorizeModeB envelope) then some .modeBNotArmed
  else if !passes (executeWith digests manifest arming.binding) then some .modeBNotArmed
  else if !passes (armModeB digests arming.binding (some arming.livePolicy)
      (some arming.liveQuorum)) then some .modeBNotArmed
  else if signer.mode = .fakeLocal then some .modeBLegacySigner
  else if arming.writePort.isNone || arming.orderAuth.isNone then some .modeBWritePortMissing
  else none

/-- `_mode_b_arming_block_reason`. -/
def modeBArmingBlockReason (digests : Digests) (arming : Option ModeBArming)
    (manifest : StrategyExperimentManifest) (envelope : PolicyEnvelope) (signer : Signer)
    (sessionId : String) (store : Option OperatorInterlockStore) : Lane (Option AbstainReason) :=
  match arming with
  | none => return some .modeBNotArmed
  | some arming =>
    match technicalBlockReason digests arming manifest envelope signer with
    | some reason => return some reason
    | none =>
      match arming.operatorInterlock, store with
      | some proof, some store =>
        if !interlockEventsAreCanonical proof.events then return some .operatorInterlockUnproven
        else do
          let binding := presentedBinding arming proof sessionId
          let verified ← ask store.verify (binding, proof.recordingReceipt)
            (.verifyInterlock binding proof.recordingReceipt)
          if verified then return none else return some .operatorInterlockUnproven
      | _, _ => return some .operatorInterlockUnproven

/-! ## What an armed run has -/

/-- Every precondition of the bundle holds, up to the store's own word. -/
structure Armed (digests : Digests) (manifest : StrategyExperimentManifest)
    (envelope : PolicyEnvelope) (signer : Signer) (arming : ModeBArming)
    (proof : OperatorInterlockProof) : Prop where
  modeAPassed : arming.modeAPassed = true
  clobv2 : arming.clobv2Gate.modeBAdmitted = true
  privyPreflight : arming.privyPreflightOk = some true
  provisioning : arming.provisioningOk = some true
  sessionCap : FinitePositive envelope.maxSessionLoss
  dailyCap : FinitePositive envelope.maxDailyLoss
  pinnedBinding : executeWith digests manifest arming.binding = .ok ()
  liveCustody : armModeB digests arming.binding (some arming.livePolicy) (some arming.liveQuorum) =
    .ok ()
  signer : signer.mode ≠ .fakeLocal
  writePort : arming.writePort.isSome = true
  orderAuth : arming.orderAuth.isSome = true
  interlock : arming.operatorInterlock = some proof
  canonical : interlockEventsAreCanonical proof.events = true

section Armed

variable {digests : Digests} {manifest : StrategyExperimentManifest} {envelope : PolicyEnvelope}
  {signer : Signer} {sessionId : String} {store : Option OperatorInterlockStore} {w w' : World}

/-- The preconditions before the interlock all hold exactly when none of them blocks. -/
theorem technicalBlockReason_none {arming : ModeBArming} :
    technicalBlockReason digests arming manifest envelope signer = none ↔
      arming.modeAPassed = true ∧ arming.clobv2Gate.modeBAdmitted = true ∧
      arming.privyPreflightOk = some true ∧ arming.provisioningOk = some true ∧
      authorizeModeB envelope = .ok () ∧ executeWith digests manifest arming.binding = .ok () ∧
      armModeB digests arming.binding (some arming.livePolicy) (some arming.liveQuorum) = .ok () ∧
      signer.mode ≠ .fakeLocal ∧ arming.writePort.isSome = true ∧
      arming.orderAuth.isSome = true := by
  simp only [← passes_iff]
  unfold technicalBlockReason
  constructor
  · intro h
    split_ifs at h with h₁ h₂ h₃ h₄ h₅ h₆ h₇ h₈ h₉
    rw [Bool.or_eq_true, not_or] at h₉
    simp only [Bool.not_eq_true', Bool.not_eq_false, ne_eq, not_not] at h₁ h₂ h₃ h₄ h₅ h₆ h₇
    refine ⟨h₁, h₂, h₃, h₄, h₅, h₆, h₇, h₈, ?_, ?_⟩
    · simpa [Option.isSome_iff_ne_none] using h₉.1
    · simpa [Option.isSome_iff_ne_none] using h₉.2
  · rintro ⟨h₁, h₂, h₃, h₄, h₅, h₆, h₇, h₈, h₉, h₁₀⟩
    obtain ⟨port, hport⟩ := Option.isSome_iff_exists.mp h₉
    obtain ⟨auth, hauth⟩ := Option.isSome_iff_exists.mp h₁₀
    simp [h₁, h₂, h₃, h₄, h₅, h₆, h₇, h₈, hport, hauth]

theorem quiet_modeBArmingBlockReason (arming : Option ModeBArming) :
    Prog.Keeps Quiet
      (modeBArmingBlockReason digests arming manifest envelope signer sessionId store) := by
  unfold modeBArmingBlockReason
  cases arming with
  | none => exact Prog.keeps_pure _
  | some arming =>
    simp only
    split
    · exact Prog.keeps_pure _
    · split
      · split_ifs
        · exact Prog.keeps_pure _
        · refine Prog.keeps_bind (quiet_ask fun _ => rfl) fun verified => ?_
          split_ifs <;> exact Prog.keeps_pure _
      · exact Prog.keeps_pure _

theorem technicalBlockReason_ne (arming : ModeBArming) :
    technicalBlockReason digests arming manifest envelope signer ≠ some .modeANoOrders := by
  unfold technicalBlockReason
  split_ifs <;> simp

theorem modeBArmingBlockReason_ne {arming : Option ModeBArming} {reason : Option AbstainReason}
    (h : (modeBArmingBlockReason digests arming manifest envelope signer sessionId store).exec w =
      (.ok reason, w')) : reason ≠ some .modeANoOrders := by
  unfold modeBArmingBlockReason at h
  cases arming with
  | none =>
    obtain ⟨hreason, -⟩ := Prod.mk.inj h
    simp [← Except.ok.inj hreason]
  | some bundle =>
    simp only at h
    cases htech : technicalBlockReason digests bundle manifest envelope signer with
    | some blocked =>
      simp only [htech] at h
      obtain ⟨hreason, -⟩ := Prod.mk.inj h
      rw [← Except.ok.inj hreason, ← htech]
      exact technicalBlockReason_ne bundle
    | none =>
      simp only [htech] at h
      split at h
      · split_ifs at h
        · obtain ⟨hreason, -⟩ := Prod.mk.inj h
          simp [← Except.ok.inj hreason]
        · obtain ⟨verified, t, -, h⟩ := Prog.exec_bind_returned h
          split_ifs at h
          · obtain ⟨hreason, -⟩ := Prod.mk.inj h
            simp [← Except.ok.inj hreason]
          · obtain ⟨hreason, -⟩ := Prod.mk.inj h
            simp [← Except.ok.inj hreason]
      · obtain ⟨hreason, -⟩ := Prod.mk.inj h
        simp [← Except.ok.inj hreason]

/-- **An armed run**: every precondition holds, and the store was asked about the very interlock
presented and answered that the receipt is its own. -/
theorem modeBArmingBlockReason_none {arming : Option ModeBArming}
    (h : (modeBArmingBlockReason digests arming manifest envelope signer sessionId store).exec w =
      (.ok none, w')) :
    ∃ bundle proof, arming = some bundle ∧
      Armed digests manifest envelope signer bundle proof ∧
      w' = w.record (.verifyInterlock (presentedBinding bundle proof sessionId)
        proof.recordingReceipt (.ok true)) := by
  unfold modeBArmingBlockReason at h
  cases arming with
  | none => simp at h
  | some bundle =>
    simp only at h
    cases htech : technicalBlockReason digests bundle manifest envelope signer with
    | some reason => simp [htech] at h
    | none =>
      simp only [htech] at h
      split at h
      · rename_i proof store hproof
        split_ifs at h with hcanonical
        · simp at h
        · obtain ⟨verified, -, hrest⟩ := exec_ask_returned h
          cases verified with
          | false => simp at hrest
          | true =>
            obtain rfl : _ = w' := by simpa using hrest
            obtain ⟨h₁, h₂, h₃, h₄, h₅, h₆, h₇, h₈, h₉, h₁₀⟩ := technicalBlockReason_none.mp htech
            obtain ⟨hsession, hdaily⟩ := authorizeModeB_ok.mp h₅
            exact ⟨bundle, proof, rfl, ⟨h₁, h₂, h₃, h₄, hsession, hdaily, h₆, h₇, h₈, h₉, h₁₀,
              hproof, by simpa using hcanonical⟩, rfl⟩
      · simp at h

end Armed

/-! ## A bundle on fixed inputs -/

namespace ArmedRun

/-- The five preconditions, satisfied under one reference. -/
def interlockEvents : List OperatorInterlockEvent :=
  (operatorPreconditions.zipIdx 1).map fun entry =>
    ⟨⟨entry.2, none, 0⟩, entry.1, true, some "operator", true⟩

/-- A bundle that arms, with a write port that accepts every order. -/
def arming : ModeBArming where
  modeAPassed := true
  clobv2Gate := ⟨true, true, true, true, some true⟩
  privyPreflightOk := some true
  provisioningOk := some true
  binding := ⟨"privy", "wallet", "0x", chainIdPolygon, "polymarket", "policy content", "quorum",
    "quorum content", 1⟩
  livePolicy := ⟨[⟨allowedSignMethod, "Order", .allow⟩, ⟨allowedSignMethod, "ClobAuth", .allow⟩],
    .deny, .quorum⟩
  liveQuorum := ⟨"quorum", ["key"], 1⟩
  operatorInterlock := some ⟨true, "receipt", interlockEvents, some "operator"⟩
  writePort := some fun _ _ => .ok ⟨⟨"", "key", none⟩, .dict [("orderID", .str "order")]⟩
  orderAuth := some ⟨0, [], 1, "attempt"⟩

end ArmedRun

end Veridex.DustExecution
