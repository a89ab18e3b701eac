import Veridex.DustExecution.Ledger
import Veridex.DustExecution.ReconciliationOutcome
import Veridex.Lib.Table

/-!
# The durable session-state provider (`dust_execution/session_state.py`)

`InMemoryDurableSessionStateProvider` keeps one reservation row for each attempt and the realized
fills of each session. Every public method holds the provider's lock for its whole body, so a
method is one atomic step and is modelled by a function from the provider to its result and the
provider it leaves. A method that raises leaves the provider as it was.

`reserveOrFreeze` is the gate of the money path. `reserveOrFreeze_reserved` says exactly when it
hands out a slot; every other outcome leaves the provider alone (`reserveOrFreeze_unchanged`).
-/

namespace Veridex.DustExecution

open Veridex.Py Veridex.Policy Veridex.Lib Veridex.Lib.RollingWindow

/-- `ScopedReservationOutcome`. -/
inductive ScopedReservationOutcome where
  | reserved
  | pendingReconcile
  | committed
  | scopeFrozen
  | capExceededSession
  | capExceededDay
  | lossCapExceededSession
  | lossCapExceededDay
  deriving DecidableEq, Repr

/-- `_effective_loss_cap`: the stricter of the two enabled caps, none when both are disabled. -/
def effectiveLossCap (envelopeCap manifestCap : PyFloat) : PyFloat :=
  match [envelopeCap, manifestCap].filter fun cap => (PyFloat.fin 0).lt cap with
  | [] => .fin 0
  | cap :: caps => caps.foldl (fun least cap => if cap.lt least then cap else least) cap

/-- **The effective cap** is breached exactly when one of the two caps is. -/
theorem capBreached_effectiveLossCap (envelopeCap manifestCap : PyFloat) (loss : ℚ) :
    capBreached (effectiveLossCap envelopeCap manifestCap) loss =
      (capBreached envelopeCap loss || capBreached manifestCap loss) := by
  unfold effectiveLossCap
  cases he : (PyFloat.fin 0).lt envelopeCap <;> cases hm : (PyFloat.fin 0).lt manifestCap
  · simp [he, hm, capBreached]
  · simp [he, hm, capBreached]
  · simp [he, hm, capBreached]
  · simp only [he, hm, List.filter_cons, if_true, List.filter_nil, List.foldl_cons, List.foldl_nil]
    cases envelopeCap <;> cases manifestCap <;> try simp [PyFloat.lt] at he hm
    · simp [PyFloat.lt, capBreached, PyFloat.le]
    · simp [PyFloat.lt, capBreached, PyFloat.le]
    · simp [PyFloat.lt, capBreached, PyFloat.le]
    · rename_i a b
      rw [Bool.eq_iff_iff]
      by_cases hlt : b < a
      · simp only [PyFloat.lt_fin_fin, hlt, decide_true, if_true, capBreached_fin,
          Bool.or_eq_true, he, hm, true_and]
        exact ⟨.inr, fun h => h.elim hlt.le.trans id⟩
      · simp only [PyFloat.lt_fin_fin, hlt, decide_false, Bool.false_eq_true, if_false,
          capBreached_fin, Bool.or_eq_true, he, hm, true_and]
        exact ⟨.inl, fun h => h.elim id (not_lt.mp hlt).trans⟩

/-- `_Reservation`. -/
structure Reservation where
  sessionIdentity : String
  reconState : ReconciliationState := .pending
  venueOrderKey : Option String := none
  deriving DecidableEq, Repr

namespace Reservation

/-- The row belongs to a session. -/
def inSession (sessionId : String) (row : Reservation) : Bool := row.sessionIdentity = sessionId

/-- The row belongs to a session and freezes it. -/
def unresolvedIn (sessionId : String) (row : Reservation) : Bool :=
  row.sessionIdentity = sessionId ∧ (row.reconState = .pending ∨ row.reconState = .ambiguous)

end Reservation

/-- `DurableSessionState`. -/
structure DurableSessionState where
  sessionIdentity : String
  risk : RiskAccumulator
  priorSessionOrderCount : ℕ
  priorDayOrderCount : ℕ
  deriving DecidableEq, Repr

/-- The caps a caller passes to `reserve_or_freeze`. -/
structure ReservationCaps where
  maxOrdersPerSession : ℤ := 0
  maxOrdersPerDay : ℤ := 0
  maxSessionLoss : PyFloat := .fin 0
  maxDailyLoss : PyFloat := .fin 0
  envelopeMaxSessionLoss : PyFloat := .fin 0
  envelopeMaxDailyLoss : PyFloat := .fin 0
  deriving DecidableEq, Repr

/-- `InMemoryDurableSessionStateProvider`, under its lock. -/
structure Provider where
  reservations : Table String Reservation
  fills : String → List RealizedFillRecord

namespace Provider

/-- `InMemoryDurableSessionStateProvider()`. -/
def new : Provider := ⟨∅, fun _ => []⟩

/-- `_count`. -/
def count (provider : Provider) (sessionId : String) : ℕ :=
  provider.reservations.count (Reservation.inSession sessionId)

/-- `_has_unresolved`. -/
def hasUnresolved (provider : Provider) (sessionId : String) : Bool :=
  provider.reservations.entries.any fun row => row.2.unresolvedIn sessionId

/-- The `sum` of the nets dated today. -/
def sumToday (today : ℤ) (netDay : ℚ) (fill : RealizedFillRecord) : Except PyExc ℚ := do
  if (← utcDay fill.fillTsMs) = today then return netDay + fill.netPnl else return netDay

/-- `_net_pnl`. -/
def netPnl (provider : Provider) (sessionId : String) (now : DateTime) : Except PyExc (ℚ × ℚ) := do
  let fills := provider.fills sessionId
  let netDay ← fills.foldlM (sumToday now.utcDay) 0
  return (netOf fills, netDay)

/-- `load`. -/
def load (provider : Provider) (sessionId : String) (now : DateTime) :
    Except PyExc DurableSessionState := do
  let (netSession, netDay) ← provider.netPnl sessionId now
  let count := provider.count sessionId
  return ⟨sessionId, .seeded sessionId netSession netDay (some now.utcDay), count, count⟩

/-- `_reserve_or_load`, which `reserve` is under the lock. -/
def reserveOrLoad (provider : Provider) (sessionIdentity attemptId : String)
    (venueOrderKey : Option String := none) : ScopedReservationOutcome × Provider :=
  match provider.reservations.lookup attemptId with
  | some existing =>
    if existing.reconState = .resolved then (.committed, provider)
    else (.pendingReconcile, provider)
  | none => (.reserved, { provider with
      reservations := provider.reservations.insert attemptId
        ⟨sessionIdentity, .pending, venueOrderKey⟩ })

/-- The realized-loss refusal of `reserve_or_freeze`, `none` when the loss is within the caps. The
ledger is summed only when a cap is enabled. -/
def lossCapRefusal (provider : Provider) (sessionIdentity : String) (now : DateTime)
    (caps : ReservationCaps) : Except PyExc (Option ScopedReservationOutcome) := do
  let effectiveSessionLoss := effectiveLossCap caps.envelopeMaxSessionLoss caps.maxSessionLoss
  let effectiveDailyLoss := effectiveLossCap caps.envelopeMaxDailyLoss caps.maxDailyLoss
  if (PyFloat.fin 0).lt effectiveSessionLoss || (PyFloat.fin 0).lt effectiveDailyLoss then
    let (netSession, netDay) ← provider.netPnl sessionIdentity now
    if capBreached effectiveSessionLoss (max 0 (-netSession)) then
      return some .lossCapExceededSession
    else if capBreached effectiveDailyLoss (max 0 (-netDay)) then
      return some .lossCapExceededDay
    else return none
  else return none

/-- The refusal of a fresh attempt: the session's freeze, the order caps, then the loss caps. -/
def refusal (provider : Provider) (sessionIdentity : String) (now : DateTime)
    (caps : ReservationCaps) : Except PyExc (Option ScopedReservationOutcome) :=
  if provider.hasUnresolved sessionIdentity then .ok (some .scopeFrozen)
  else
    let count := provider.count sessionIdentity
    if 0 < caps.maxOrdersPerSession ∧ caps.maxOrdersPerSession ≤ count then
      .ok (some .capExceededSession)
    else if 0 < caps.maxOrdersPerDay ∧ caps.maxOrdersPerDay ≤ count then
      .ok (some .capExceededDay)
    else provider.lossCapRefusal sessionIdentity now caps

/-- `reserve_or_freeze`. -/
def reserveOrFreeze (provider : Provider) (sessionIdentity : String) (now : DateTime)
    (attemptId : String) (caps : ReservationCaps) (venueOrderKey : Option String := none) :
    Except PyExc (ScopedReservationOutcome × Provider) := do
  if (provider.reservations.lookup attemptId).isNone then
    if let some outcome ← provider.refusal sessionIdentity now caps then
      return (outcome, provider)
  return provider.reserveOrLoad sessionIdentity attemptId venueOrderKey

/-- `settle`. -/
def settle (provider : Provider) (attemptId : String) (reconState : ReconciliationState)
    (venueOrderKey : Option String := none) : Provider :=
  match provider.reservations.lookup attemptId with
  | none => provider
  | some reservation =>
    if reconState = .definitivelyAbsent then
      { provider with reservations := provider.reservations.erase attemptId }
    else { provider with
      reservations := provider.reservations.insert attemptId { reservation with
        reconState := reconState
        venueOrderKey := venueOrderKey <|> reservation.venueOrderKey } }

/-- `record_reconciled_fills`. -/
def recordReconciledFills (provider : Provider) (sessionIdentity : String)
    (fills : List RealizedFillRecord) : Provider :=
  { provider with
    fills := fun sessionId =>
      if sessionId = sessionIdentity then provider.fills sessionId ++ fills
      else provider.fills sessionId }

/-! ## What the methods do -/

section Spec

variable {provider provider' : Provider} {sessionIdentity attemptId : String} {now : DateTime}
  {caps : ReservationCaps} {venueOrderKey : Option String}

/-- The number of rows that freeze a session. -/
def unresolvedCount (provider : Provider) (sessionId : String) : ℕ :=
  provider.reservations.count (Reservation.unresolvedIn sessionId)

theorem hasUnresolved_eq_false {sessionId : String} :
    provider.hasUnresolved sessionId = false ↔ provider.unresolvedCount sessionId = 0 := by
  simp [hasUnresolved, unresolvedCount, Table.count]

theorem sumToday_ok {today : ℤ} {netDay netDay' : ℚ} {fill : RealizedFillRecord} :
    sumToday today netDay fill = .ok netDay' ↔ Representable fill ∧
      netDay' = netDay + if dayOf fill.fillTsMs = today then fill.netPnl else 0 := by
  rw [← utcDay_representable]
  unfold sumToday
  cases hd : utcDay fill.fillTsMs with
  | error e => simp [bind, Except.bind]
  | ok d =>
    have hday := (utcDay_ok.mp hd).2
    subst hday
    by_cases h : dayOf fill.fillTsMs = today <;>
      simp [bind, Except.bind, pure, Except.pure, h, eq_comm]

theorem foldlM_sumToday {today : ℤ} : ∀ (L : List RealizedFillRecord) (netDay netDay' : ℚ),
    L.foldlM (sumToday today) netDay = .ok netDay' ↔ (∀ f ∈ L, Representable f) ∧
      netDay' = netDay + sumAt today (L.map dated)
  | [], netDay, netDay' => by simp [pure, Except.pure, eq_comm]
  | f :: L, netDay, netDay' => by
    rw [List.foldlM_cons]
    cases hf : sumToday today netDay f with
    | error e =>
      have hnot : ¬ Representable f := fun hrep => by
        have : sumToday today netDay f = .ok _ := sumToday_ok.mpr ⟨hrep, rfl⟩
        simp [hf] at this
      simp [bind, Except.bind, hnot]
    | ok mid =>
      obtain ⟨hrep, rfl⟩ := sumToday_ok.mp hf
      simp only [bind, Except.bind, foldlM_sumToday L, List.map_cons, sumAt_cons,
        List.forall_mem_cons, hrep, true_and, add_assoc]
      rfl

/-- **`_net_pnl`** returns on representable timestamps: the net of the session and of today. -/
theorem netPnl_ok {sessionId : String} {nets : ℚ × ℚ} :
    provider.netPnl sessionId now = .ok nets ↔
      (∀ f ∈ provider.fills sessionId, Representable f) ∧
        nets = (netOf (provider.fills sessionId),
          sumAt now.utcDay ((provider.fills sessionId).map dated)) := by
  unfold netPnl
  simp only
  cases hsum : (provider.fills sessionId).foldlM (sumToday now.utcDay) 0 with
  | error e =>
    have hnot : ¬ ∀ f ∈ provider.fills sessionId, Representable f := fun hrep => by
      have : (provider.fills sessionId).foldlM (sumToday now.utcDay) 0 = .ok _ :=
        (foldlM_sumToday _ 0 _).mpr ⟨hrep, rfl⟩
      simp [hsum] at this
    simp [bind, Except.bind, hnot]
  | ok netDay =>
    obtain ⟨hrep, rfl⟩ := (foldlM_sumToday _ _ _).mp hsum
    rw [zero_add]
    simp only [bind, Except.bind, pure, Except.pure, Except.ok.injEq]
    exact ⟨fun h => ⟨hrep, h.symm⟩, fun h => h.2.symm⟩

theorem load_identity {sessionId : String} {state : DurableSessionState}
    (h : provider.load sessionId now = .ok state) : state.sessionIdentity = sessionId := by
  unfold load at h
  cases hnets : provider.netPnl sessionId now with
  | error e => simp [hnets, bind, Except.bind] at h
  | ok nets =>
    simp only [hnets, bind, Except.bind, pure, Except.pure, Except.ok.injEq] at h
    rw [← h]

/-- The loss is below the effective caps: neither is enabled, or the ledger sums and breaches
neither. -/
def LossWithin (provider : Provider) (sessionIdentity : String) (now : DateTime)
    (caps : ReservationCaps) : Prop :=
  ((PyFloat.fin 0).lt (effectiveLossCap caps.envelopeMaxSessionLoss caps.maxSessionLoss) = false ∧
    (PyFloat.fin 0).lt (effectiveLossCap caps.envelopeMaxDailyLoss caps.maxDailyLoss) = false) ∨
  ∃ nets, provider.netPnl sessionIdentity now = .ok nets ∧
    capBreached (effectiveLossCap caps.envelopeMaxSessionLoss caps.maxSessionLoss)
      (max 0 (-nets.1)) = false ∧
    capBreached (effectiveLossCap caps.envelopeMaxDailyLoss caps.maxDailyLoss)
      (max 0 (-nets.2)) = false

/-- An order cap is disabled or not reached. -/
def OrdersBelow (provider : Provider) (sessionIdentity : String) (cap : ℤ) : Prop :=
  0 < cap → provider.count sessionIdentity < cap

theorem lossCapRefusal_none :
    provider.lossCapRefusal sessionIdentity now caps = .ok none ↔
      provider.LossWithin sessionIdentity now caps := by
  unfold lossCapRefusal LossWithin
  simp only
  generalize effectiveLossCap caps.envelopeMaxSessionLoss caps.maxSessionLoss = sessionCap
  generalize effectiveLossCap caps.envelopeMaxDailyLoss caps.maxDailyLoss = dailyCap
  cases hs : (PyFloat.fin 0).lt sessionCap <;> cases hd : (PyFloat.fin 0).lt dailyCap
  · simp [pure, Except.pure]
  all_goals
    simp only [Bool.or_true, Bool.or_false, if_true, Bool.true_eq_false, false_and, and_false,
      false_or]
    cases hnets : provider.netPnl sessionIdentity now with
    | error e => simp [bind, Except.bind]
    | ok nets =>
      simp only [bind, Except.bind, pure, Except.pure, Except.ok.injEq, exists_eq_left']
      cases capBreached sessionCap (max 0 (-nets.1)) <;>
        cases capBreached dailyCap (max 0 (-nets.2)) <;> simp

theorem lossCapRefusal_ne_reserved {outcome : ScopedReservationOutcome}
    (h : provider.lossCapRefusal sessionIdentity now caps = .ok (some outcome)) :
    outcome ≠ .reserved := by
  unfold lossCapRefusal at h
  simp only at h
  split_ifs at h
  · cases hnets : provider.netPnl sessionIdentity now with
    | error e => simp [hnets, bind, Except.bind] at h
    | ok nets =>
      simp only [hnets, bind, Except.bind, pure, Except.pure] at h
      rintro rfl
      split_ifs at h <;> simp at h
  · simp [pure, Except.pure] at h

/-- **A fresh attempt is not refused** exactly when nothing freezes its session and every enabled
cap has room. -/
theorem refusal_none : provider.refusal sessionIdentity now caps = .ok none ↔
    provider.unresolvedCount sessionIdentity = 0 ∧
      provider.OrdersBelow sessionIdentity caps.maxOrdersPerSession ∧
      provider.OrdersBelow sessionIdentity caps.maxOrdersPerDay ∧
      provider.LossWithin sessionIdentity now caps := by
  rw [← hasUnresolved_eq_false, ← lossCapRefusal_none]
  unfold refusal OrdersBelow
  cases hfrozen : provider.hasUnresolved sessionIdentity with
  | true => simp
  | false =>
    simp only [Bool.false_eq_true, if_false, true_and]
    split_ifs with hsession hday
    · simp [hsession]
    · simp [hday]
    · have hs : 0 < caps.maxOrdersPerSession →
          (provider.count sessionIdentity : ℤ) < caps.maxOrdersPerSession := by omega
      have hd : 0 < caps.maxOrdersPerDay →
          (provider.count sessionIdentity : ℤ) < caps.maxOrdersPerDay := by omega
      exact ⟨fun h => ⟨hs, hd, h⟩, fun h => h.2.2⟩

theorem refusal_ne_reserved {outcome : ScopedReservationOutcome}
    (h : provider.refusal sessionIdentity now caps = .ok (some outcome)) :
    outcome ≠ .reserved := by
  unfold refusal at h
  simp only at h
  split_ifs at h
  · rw [Option.some.inj (Except.ok.inj h).symm]
    simp
  · rw [Option.some.inj (Except.ok.inj h).symm]
    simp
  · rw [Option.some.inj (Except.ok.inj h).symm]
    simp
  · exact lossCapRefusal_ne_reserved h

/-- The provider with a fresh row. -/
def withReservation (provider : Provider) (attemptId : String) (row : Reservation) : Provider :=
  { provider with reservations := provider.reservations.insert attemptId row }

/-- **A slot is handed out** exactly to a fresh attempt that is not refused, and it is a pending
row of the session. -/
theorem reserveOrFreeze_reserved :
    provider.reserveOrFreeze sessionIdentity now attemptId caps venueOrderKey =
        .ok (.reserved, provider') ↔
      provider.reservations.lookup attemptId = none ∧
        provider.refusal sessionIdentity now caps = .ok none ∧
        provider' = provider.withReservation attemptId ⟨sessionIdentity, .pending, venueOrderKey⟩ := by
  unfold reserveOrFreeze reserveOrLoad withReservation
  cases hrow : provider.reservations.lookup attemptId with
  | some existing =>
    by_cases hres : existing.reconState = .resolved <;> simp [hres, pure, Except.pure]
  | none =>
    cases href : provider.refusal sessionIdentity now caps with
    | error e => simp [bind, Except.bind]
    | ok outcome =>
      cases outcome with
      | none => simp [bind, Except.bind, pure, Except.pure, eq_comm]
      | some outcome =>
        have := refusal_ne_reserved href
        simp [bind, Except.bind, pure, Except.pure, this]

/-- **Every other outcome leaves the provider alone.** -/
theorem reserveOrFreeze_unchanged {outcome : ScopedReservationOutcome}
    (h : provider.reserveOrFreeze sessionIdentity now attemptId caps venueOrderKey =
      .ok (outcome, provider')) (hout : outcome ≠ .reserved) : provider' = provider := by
  unfold reserveOrFreeze reserveOrLoad at h
  cases hrow : provider.reservations.lookup attemptId with
  | some existing =>
    by_cases hres : existing.reconState = .resolved <;>
      simp [hrow, hres, pure, Except.pure] at h <;> exact h.2.symm
  | none =>
    cases href : provider.refusal sessionIdentity now caps with
    | error e => simp [hrow, href, bind, Except.bind] at h
    | ok refused =>
      cases refused with
      | none =>
        simp only [hrow, href, bind, Except.bind, pure, Except.pure, Except.ok.injEq,
          Option.isNone_none, if_true, Prod.mk.injEq] at h
        exact absurd h.1.symm hout
      | some refused =>
        simp only [hrow, href, bind, Except.bind, pure, Except.pure, Except.ok.injEq,
          Option.isNone_none, if_true, Prod.mk.injEq] at h
        exact h.2.symm

/-! ## The counts a session is guarded by -/

theorem count_withReservation {sessionId : String} {row : Reservation}
    (h : provider.reservations.lookup attemptId = none) :
    (provider.withReservation attemptId row).count sessionId =
      provider.count sessionId + if row.inSession sessionId then 1 else 0 :=
  Table.count_insert_new h

theorem unresolvedCount_withReservation {sessionId : String} {row : Reservation}
    (h : provider.reservations.lookup attemptId = none) :
    (provider.withReservation attemptId row).unresolvedCount sessionId =
      provider.unresolvedCount sessionId + if row.unresolvedIn sessionId then 1 else 0 :=
  Table.count_insert_new h

/-- **`settle`** on the row of an attempt: a release erases it, every other state rewrites it. -/
theorem settle_cases {row : Reservation} (h : provider.reservations.lookup attemptId = some row)
    (reconState : ReconciliationState) (venueOrderKey : Option String) :
    (reconState = .definitivelyAbsent ∧
      provider.settle attemptId reconState venueOrderKey =
        { provider with reservations := provider.reservations.erase attemptId }) ∨
    (reconState ≠ .definitivelyAbsent ∧ ∃ key,
      provider.settle attemptId reconState venueOrderKey =
        provider.withReservation attemptId ⟨row.sessionIdentity, reconState, key⟩) := by
  by_cases hrel : reconState = .definitivelyAbsent
  · exact .inl ⟨hrel, by simp [settle, h, hrel]⟩
  · exact .inr ⟨hrel, venueOrderKey <|> row.venueOrderKey, by simp [settle, h, hrel, withReservation]⟩

theorem count_settle_le {sessionId : String} {row : Reservation}
    (h : provider.reservations.lookup attemptId = some row) (reconState : ReconciliationState)
    (key : Option String) :
    (provider.settle attemptId reconState key).count sessionId ≤ provider.count sessionId := by
  rcases settle_cases h reconState key with ⟨-, hs⟩ | ⟨-, key', hs⟩
  · rw [hs]
    exact Table.count_erase_le
  · rw [hs]
    simp only [count, withReservation]
    rw [Table.count_insert, Table.count_of_lookup h]
    simp [Reservation.inSession]

/-- Settling a row that freezes its session never freezes it more. -/
theorem unresolvedCount_settle_le {sessionId : String} {row : Reservation}
    (h : provider.reservations.lookup attemptId = some row) (hrow : row.reconState = .pending)
    (reconState : ReconciliationState) (key : Option String) :
    (provider.settle attemptId reconState key).unresolvedCount sessionId ≤
      provider.unresolvedCount sessionId := by
  rcases settle_cases h reconState key with ⟨-, hs⟩ | ⟨-, key', hs⟩
  · rw [hs]
    exact Table.count_erase_le
  · rw [hs]
    simp only [unresolvedCount, withReservation]
    rw [Table.count_insert, Table.count_of_lookup h]
    by_cases hsession : row.sessionIdentity = sessionId
    · simp only [Reservation.unresolvedIn, hsession, hrow, true_and, true_or, decide_true, if_true]
      split_ifs <;> omega
    · simp [Reservation.unresolvedIn, hsession]

theorem lookup_settle_ne {other : String} (h : other ≠ attemptId)
    (reconState : ReconciliationState) (key : Option String) :
    (provider.settle attemptId reconState key).reservations.lookup other =
      provider.reservations.lookup other := by
  unfold settle
  split
  · rfl
  · split_ifs
    · exact AList.lookup_erase_ne h
    · exact AList.lookup_insert_ne h

end Spec

end Provider

end Veridex.DustExecution
