import Veridex.Py.Decoded

/-!
# The policy envelope (`policy/envelope.py`)

The operator-set limits and `cap_breached`, the one predicate every realized-loss cap goes
through. `policy_hash` is a digest of the whole envelope, so the serializer and the hash are a
parameter of the modules that compare it.
-/

namespace Veridex.Policy

open Veridex.Py

/-- `cap_breached`: a cap that is not positive is disabled, an enabled one is breached once the
loss reaches it. -/
def capBreached (cap : PyFloat) (loss : ℚ) : Bool :=
  (PyFloat.fin 0).lt cap && cap.le loss

/-- `PolicyEnvelope`. -/
structure PolicyEnvelope where
  maxStake : PyFloat
  maxOrdersPerRun : ℤ
  maxOrdersPerSession : ℤ
  maxOrdersPerDay : ℤ
  venueAllowlist : List String
  marketAllowlist : List String
  minEdgeBps : ℤ
  maxSlippageBps : ℤ
  maxPrice : PyFloat
  maxQuoteAgeS : ℤ
  cooldownS : ℤ
  humanApprovalThreshold : PyFloat
  maxStakeLiveGuarded : PyFloat := .fin 0
  circuitBreakerThreshold : ℤ := 0
  maxSessionLoss : PyFloat := .fin 0
  maxDailyLoss : PyFloat := .fin 0
  killSwitch : Bool := false
  deriving DecidableEq, Repr

/-- A finite positive cap. -/
def FinitePositive (cap : PyFloat) : Prop := ∃ q : ℚ, cap = .fin q ∧ 0 < q

@[simp] theorem capBreached_fin (cap loss : ℚ) :
    capBreached (.fin cap) loss = true ↔ 0 < cap ∧ cap ≤ loss := by
  simp [capBreached]

end Veridex.Policy

/-!
## The circuit breaker (`policy/circuit_breaker.py`)

A breaker opens after enough consecutive failures and admits a probe once it has cooled down. Its
transitions return a new state, and its clock is injected.

Results: `recordFailure_open` and `recordSuccess_open` (only `resolve` leaves `open`).
-/

namespace Veridex.Policy

open Veridex.Py

/-- `CircuitState`. -/
inductive CircuitState where
  | closed
  | «open»
  | halfOpen
  deriving DecidableEq, Repr

/-- `CircuitBreaker`. -/
structure CircuitBreaker where
  state : CircuitState := .closed
  consecutiveFailures : ℤ := 0
  openedAt : Option PyFloat := none
  probeUsed : Bool := false
  deriving DecidableEq, Repr

namespace CircuitBreaker

/-- `allows`. -/
def allows (breaker : CircuitBreaker) : Bool :=
  match breaker.state with
  | .closed => true
  | .halfOpen => !breaker.probeUsed
  | .open => false

/-- `record_failure`. -/
def recordFailure (breaker : CircuitBreaker) (threshold : ℤ) (now : PyFloat) : CircuitBreaker :=
  let failures := breaker.consecutiveFailures + 1
  if breaker.state = .halfOpen then
    { state := .open, consecutiveFailures := failures, openedAt := some now }
  else if 0 < threshold ∧ threshold ≤ failures then
    { state := .open, consecutiveFailures := failures, openedAt := some now }
  else { breaker with consecutiveFailures := failures }

/-- `record_success`. -/
def recordSuccess (breaker : CircuitBreaker) : CircuitBreaker :=
  if breaker.state = .halfOpen then {} else { breaker with consecutiveFailures := 0 }

/-- `resolve`. -/
def resolve (breaker : CircuitBreaker) (now cooldownS : PyFloat) : CircuitBreaker :=
  match breaker.state, breaker.openedAt with
  | .open, some openedAt =>
    if cooldownS.le (now.sub openedAt) then
      { breaker with state := .halfOpen, probeUsed := false }
    else breaker
  | _, _ => breaker

/-- `start_probe`. -/
def startProbe (breaker : CircuitBreaker) : CircuitBreaker :=
  if breaker.state = .halfOpen ∧ breaker.probeUsed = false then { breaker with probeUsed := true }
  else breaker

@[simp] theorem allows_open {breaker : CircuitBreaker} (h : breaker.state = .open) :
    breaker.allows = false := by
  rw [allows, h]

/-- An open breaker stays open, whatever is executed. -/
theorem recordFailure_open {breaker : CircuitBreaker} (h : breaker.state = .open) (threshold : ℤ)
    (now : PyFloat) : (breaker.recordFailure threshold now).state = .open := by
  unfold recordFailure
  simp only
  split_ifs
  · rfl
  · rfl
  · exact h

theorem recordSuccess_open {breaker : CircuitBreaker} (h : breaker.state = .open) :
    breaker.recordSuccess.state = .open := by
  rw [recordSuccess, if_neg (by rw [h]; decide)]
  exact h

end CircuitBreaker

end Veridex.Policy
