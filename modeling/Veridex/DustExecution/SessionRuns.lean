import Veridex.DustExecution.SessionState

/-!
# Interleaved calls on one provider (`dust_execution/facade.py`, `session_state.py`)

Any calls of `propose_mm_execution` on one provider. A call loads the durable state, reserves or is
refused, runs, and when the run returned settles its row with the reconciliation outcome of the
run's own events. Each provider method is one atomic step; between any two of them every other call
may take steps, the ledger may grow, and the call itself may crash or raise, whereupon it never
takes a step again and its row stays as it is.

The invariant `Guarded` ties the two sides together: a call between its reservation and its settle
*owns* a pending row of its session, and no two calls own one row. So a session with at most one
unresolved row has at most one call inside its run.

Results: `guarded_step` (one step), `session_guarded` (every run).
-/

namespace Veridex.DustExecution

open Veridex.Py Veridex.Lib Relation

variable {ι : Type*}

/-- What a call passes to the provider. -/
structure CallSpec where
  sessionId : String
  attemptId : String
  caps : ReservationCaps

/-- Where a call stands. -/
inductive CallState where
  | idle
  | loaded (state : DurableSessionState)
  | reserved
  | running
  | returned (events : List LifecycleEvent)
  | ended
  deriving DecidableEq

/-- The call holds the row it reserved. -/
def CallState.owns : CallState → Bool
  | .reserved | .running | .returned _ => true
  | _ => false

/-- The provider and its calls. -/
structure CallSystem (ι : Type*) where
  provider : Provider
  call : ι → CallState

/-- A fresh provider, every call still to come. -/
def CallSystem.init : CallSystem ι := ⟨.new, fun _ => .idle⟩

/-- A call moves on. -/
def CallSystem.move [DecidableEq ι] (sys : CallSystem ι) (i : ι) (state : CallState)
    (provider : Provider) : CallSystem ι :=
  ⟨provider, Function.update sys.call i state⟩

/-- One step of one call, or of the ledger. -/
inductive CallStep [DecidableEq ι] (spec : ι → CallSpec) (sys : CallSystem ι) : CallSystem ι → Prop
  | load (i : ι) (now : DateTime) (state : DurableSessionState) (hpc : sys.call i = .idle)
      (hload : sys.provider.load (spec i).sessionId now = .ok state) :
      CallStep spec sys (sys.move i (.loaded state) sys.provider)
  | reserve (i : ι) (now : DateTime) (state : DurableSessionState) (provider : Provider)
      (hpc : sys.call i = .loaded state)
      (hreserve : sys.provider.reserveOrFreeze state.sessionIdentity now (spec i).attemptId
        (spec i).caps = .ok (.reserved, provider)) :
      CallStep spec sys (sys.move i .reserved provider)
  | refuse (i : ι) (now : DateTime) (state : DurableSessionState) (provider : Provider)
      (outcome : ScopedReservationOutcome) (hpc : sys.call i = .loaded state)
      (hreserve : sys.provider.reserveOrFreeze state.sessionIdentity now (spec i).attemptId
        (spec i).caps = .ok (outcome, provider)) (hout : outcome ≠ .reserved) :
      CallStep spec sys (sys.move i .ended provider)
  | start (i : ι) (hpc : sys.call i = .reserved) :
      CallStep spec sys (sys.move i .running sys.provider)
  | finish (i : ι) (events : List LifecycleEvent) (hpc : sys.call i = .running) :
      CallStep spec sys (sys.move i (.returned events) sys.provider)
  | settle (i : ι) (events : List LifecycleEvent) (hpc : sys.call i = .returned events) :
      CallStep spec sys (sys.move i .ended (sys.provider.settle (spec i).attemptId
        (reconciliationOutcome events).1 (reconciliationOutcome events).2))
  | abort (i : ι) : CallStep spec sys (sys.move i .ended sys.provider)
  | fill (sessionId : String) (fills : List RealizedFillRecord) :
      CallStep spec sys { sys with provider := sys.provider.recordReconciledFills sessionId fills }

/-! ## The invariant -/

/-- The caps every call of a session passes. -/
structure SessionCaps (spec : ι → CallSpec) (sessionId : String) (session day : ℤ) : Prop where
  session_eq : ∀ i, (spec i).sessionId = sessionId → (spec i).caps.maxOrdersPerSession = session
  day_eq : ∀ i, (spec i).sessionId = sessionId → (spec i).caps.maxOrdersPerDay = day

/-- The invariant: owners have their rows to themselves, and the session's counts are bounded. -/
structure Guarded (spec : ι → CallSpec) (sessionId : String) (session day : ℤ)
    (sys : CallSystem ι) : Prop where
  loaded : ∀ i state, sys.call i = .loaded state → state.sessionIdentity = (spec i).sessionId
  owned : ∀ i, (sys.call i).owns = true → ∃ key,
    sys.provider.reservations.lookup (spec i).attemptId = some ⟨(spec i).sessionId, .pending, key⟩
  apart : ∀ i j, (sys.call i).owns = true → (sys.call j).owns = true →
    (spec i).attemptId = (spec j).attemptId → i = j
  unresolved : sys.provider.unresolvedCount sessionId ≤ 1
  session : 0 < session → (sys.provider.count sessionId : ℤ) ≤ session
  day : 0 < day → (sys.provider.count sessionId : ℤ) ≤ day

section Steps

variable {spec : ι → CallSpec} {sessionId : String} {session day : ℤ} {sys sys' : CallSystem ι}

theorem guarded_init : Guarded spec sessionId session day (.init : CallSystem ι) := by
  refine ⟨by simp [CallSystem.init], by simp [CallSystem.init, CallState.owns],
    by simp [CallSystem.init, CallState.owns], ?_, fun hpos => ?_, fun hpos => ?_⟩
  · simp [CallSystem.init, Provider.new, Provider.unresolvedCount]
  · simp only [CallSystem.init, Provider.new, Provider.count, Table.count_empty]
    omega
  · simp only [CallSystem.init, Provider.new, Provider.count, Table.count_empty]
    omega

/-- Two calls that own a row of one session are one call. -/
theorem Guarded.owner_unique (h : Guarded spec sessionId session day sys) {i j : ι}
    (hi : (spec i).sessionId = sessionId) (hj : (spec j).sessionId = sessionId)
    (howni : (sys.call i).owns = true) (hownj : (sys.call j).owns = true) : i = j := by
  refine h.apart i j howni hownj ?_
  obtain ⟨keyi, hrowi⟩ := h.owned i howni
  obtain ⟨keyj, hrowj⟩ := h.owned j hownj
  exact Table.eq_of_count_le_one h.unresolved hrowi hrowj (by simp [Reservation.unresolvedIn, hi])
    (by simp [Reservation.unresolvedIn, hj])

variable [DecidableEq ι]

/-- A call moves on and leaves the provider alone: it owns no more than before. -/
theorem Guarded.move (h : Guarded spec sessionId session day sys) (i : ι) (state : CallState)
    (howns : state.owns = true → (sys.call i).owns = true)
    (hloaded : ∀ loaded, state = .loaded loaded → loaded.sessionIdentity = (spec i).sessionId) :
    Guarded spec sessionId session day (sys.move i state sys.provider) := by
  have hmono : ∀ j, ((sys.move i state sys.provider).call j).owns = true →
      (sys.call j).owns = true := by
    intro j hj
    by_cases hji : j = i
    · subst hji
      exact howns (by simpa [CallSystem.move] using hj)
    · simpa [CallSystem.move, hji] using hj
  refine ⟨fun j loaded hj => ?_, fun j hj => h.owned j (hmono j hj),
    fun j k hj hk => h.apart j k (hmono j hj) (hmono k hk), h.unresolved, h.session, h.day⟩
  by_cases hji : j = i
  · subst hji
    exact hloaded loaded (by simpa [CallSystem.move] using hj)
  · exact h.loaded j loaded (by simpa [CallSystem.move, hji] using hj)

/-- A fresh row of a session with room stays within the cap. -/
theorem count_reserved_le {provider : Provider} {attemptId rowSession : String} {cap : ℤ}
    (hfresh : provider.reservations.lookup attemptId = none)
    (hroom : rowSession = sessionId → provider.OrdersBelow sessionId cap) (hpos : 0 < cap)
    (hle : (provider.count sessionId : ℤ) ≤ cap) :
    ((provider.withReservation attemptId ⟨rowSession, .pending, none⟩).count sessionId : ℤ) ≤
      cap := by
  rw [Provider.count_withReservation hfresh]
  by_cases hs : rowSession = sessionId
  · have := hroom hs hpos
    split_ifs <;> omega
  · simpa [Reservation.inSession, hs] using hle

/-- **A reservation** is made on a session nothing freezes, with room under its caps. -/
theorem Guarded.reserve (h : Guarded spec sessionId session day sys)
    (hcaps : SessionCaps spec sessionId session day) {i : ι} {now : DateTime}
    {state : DurableSessionState} {provider : Provider} (hpc : sys.call i = .loaded state)
    (hreserve : sys.provider.reserveOrFreeze state.sessionIdentity now (spec i).attemptId
      (spec i).caps = .ok (.reserved, provider)) :
    Guarded spec sessionId session day (sys.move i .reserved provider) := by
  rw [h.loaded i state hpc] at hreserve
  obtain ⟨hfresh, hroom, rfl⟩ := Provider.reserveOrFreeze_reserved.mp hreserve
  obtain ⟨hfree, hsession, hday, -⟩ := Provider.refusal_none.mp hroom
  have hother : ∀ j, j ≠ i → (sys.call j).owns = true →
      (spec j).attemptId ≠ (spec i).attemptId := by
    intro j hji hj heq
    obtain ⟨key, hkey⟩ := h.owned j hj
    rw [heq, hfresh] at hkey
    simp at hkey
  refine ⟨fun j loaded hj => ?_, fun j hj => ?_, fun j k hj hk heq => ?_, ?_, fun hpos => ?_,
    fun hpos => ?_⟩
  · by_cases hji : j = i
    · subst hji
      simp [CallSystem.move] at hj
    · exact h.loaded j loaded (by simpa [CallSystem.move, hji] using hj)
  · by_cases hji : j = i
    · subst hji
      exact ⟨none, AList.lookup_insert _⟩
    · have hj' : (sys.call j).owns = true := by simpa [CallSystem.move, hji] using hj
      obtain ⟨key, hkey⟩ := h.owned j hj'
      exact ⟨key, (AList.lookup_insert_ne (hother j hji hj')).trans hkey⟩
  · by_cases hji : j = i <;> by_cases hki : k = i
    · rw [hji, hki]
    · subst hji
      exact absurd heq.symm (hother k hki (by simpa [CallSystem.move, hki] using hk))
    · subst hki
      exact absurd heq (hother j hji (by simpa [CallSystem.move, hji] using hj))
    · exact h.apart j k (by simpa [CallSystem.move, hji] using hj)
        (by simpa [CallSystem.move, hki] using hk) heq
  · have hold := h.unresolved
    have hnew : (sys.provider.withReservation (spec i).attemptId
        ⟨(spec i).sessionId, .pending, none⟩).unresolvedCount sessionId = _ :=
      Provider.unresolvedCount_withReservation hfresh
    simp only [CallSystem.move]
    rw [hnew]
    by_cases hs : (spec i).sessionId = sessionId
    · rw [hs] at hfree
      split_ifs <;> omega
    · simpa [Reservation.unresolvedIn, hs] using hold
  · exact count_reserved_le hfresh (fun hs => by rwa [hs, hcaps.session_eq i hs] at hsession) hpos
      (h.session hpos)
  · exact count_reserved_le hfresh (fun hs => by rwa [hs, hcaps.day_eq i hs] at hday) hpos
      (h.day hpos)

/-- **A settle** by the row's owner frees the row or leaves it counted, and never freezes more. -/
theorem Guarded.settle (h : Guarded spec sessionId session day sys) {i : ι}
    {events : List LifecycleEvent} (hpc : sys.call i = .returned events)
    (reconState : ReconciliationState) (key : Option String) :
    Guarded spec sessionId session day
      (sys.move i .ended (sys.provider.settle (spec i).attemptId reconState key)) := by
  have hi : (sys.call i).owns = true := by rw [hpc]; rfl
  obtain ⟨oldKey, hrow⟩ := h.owned i hi
  have hcall : ∀ j, ((sys.move i .ended (sys.provider.settle (spec i).attemptId reconState
      key)).call j).owns = true → j ≠ i ∧ (sys.call j).owns = true := by
    intro j hj
    by_cases hji : j = i
    · subst hji
      simp [CallSystem.move, CallState.owns] at hj
    · exact ⟨hji, by simpa [CallSystem.move, hji] using hj⟩
  have hcount : _ ≤ sys.provider.count sessionId := Provider.count_settle_le hrow reconState key
  refine ⟨fun j loaded hj => ?_, fun j hj => ?_, fun j k hj hk => ?_, ?_, fun hpos => ?_,
    fun hpos => ?_⟩
  · by_cases hji : j = i
    · subst hji
      simp [CallSystem.move] at hj
    · exact h.loaded j loaded (by simpa [CallSystem.move, hji] using hj)
  · obtain ⟨hji, hown⟩ := hcall j hj
    obtain ⟨keyj, hkeyj⟩ := h.owned j hown
    have hne : (spec j).attemptId ≠ (spec i).attemptId := fun heq => hji (h.apart j i hown hi heq)
    exact ⟨keyj, (Provider.lookup_settle_ne hne reconState key).trans hkeyj⟩
  · exact h.apart j k (hcall j hj).2 (hcall k hk).2
  · exact (Provider.unresolvedCount_settle_le hrow rfl reconState key).trans h.unresolved
  · have := h.session hpos
    simp only [CallSystem.move]
    omega
  · have := h.day hpos
    simp only [CallSystem.move]
    omega

/-- **Every step keeps the invariant.** -/
theorem guarded_step (hcaps : SessionCaps spec sessionId session day)
    (h : Guarded spec sessionId session day sys) (hstep : CallStep spec sys sys') :
    Guarded spec sessionId session day sys' := by
  cases hstep with
  | load i now state hpc hload =>
    refine h.move i _ (by simp [CallState.owns]) fun loaded heq => ?_
    obtain rfl : state = loaded := by simpa using heq
    exact Provider.load_identity hload
  | reserve i now state provider hpc hreserve => exact h.reserve hcaps hpc hreserve
  | refuse i now state provider outcome hpc hreserve hout =>
    rw [Provider.reserveOrFreeze_unchanged hreserve hout]
    exact h.move i _ (by simp [CallState.owns]) (by simp)
  | start i hpc => exact h.move i _ (by simp [hpc, CallState.owns]) (by simp)
  | finish i events hpc => exact h.move i _ (by simp [hpc, CallState.owns]) (by simp)
  | settle i events hpc => exact h.settle hpc _ _
  | abort i => exact h.move i _ (by simp [CallState.owns]) (by simp)
  | fill session' fills => exact ⟨h.loaded, h.owned, h.apart, h.unresolved, h.session, h.day⟩

/-- **Every reachable state keeps the invariant.** -/
theorem guarded_of_reachable (hcaps : SessionCaps spec sessionId session day)
    (hreach : ReflTransGen (CallStep spec) .init sys) :
    Guarded spec sessionId session day sys := by
  induction hreach with
  | refl => exact guarded_init
  | tail _ hstep ih => exact guarded_step hcaps ih hstep

/-! ## What it guards -/

/-- **A session is guarded over every run**: at most one unresolved row, no more rows than the
order caps, and at most one call inside its run. -/
theorem session_guarded (hcaps : SessionCaps spec sessionId session day) (hpos : 0 < session)
    (hreach : ReflTransGen (CallStep spec) .init sys) :
    (∀ a b row row', sys.provider.reservations.lookup a = some row →
        sys.provider.reservations.lookup b = some row' → row.unresolvedIn sessionId = true →
        row'.unresolvedIn sessionId = true → a = b) ∧
      (sys.provider.count sessionId : ℤ) ≤ session ∧
      (0 < day → (sys.provider.count sessionId : ℤ) ≤ day) ∧
      ∀ i j, (spec i).sessionId = sessionId → (spec j).sessionId = sessionId →
        sys.call i = .running → sys.call j = .running → i = j := by
  have h := guarded_of_reachable hcaps hreach
  refine ⟨fun a b row row' ha hb hrow hrow' => Table.eq_of_count_le_one h.unresolved ha hb hrow hrow',
    h.session hpos, h.day, fun i j hi hj hri hrj => ?_⟩
  exact h.owner_unique hi hj (by simp [hri, CallState.owns]) (by simp [hrj, CallState.owns])

end Steps

/-- Two calls of one session that may place one order. -/
def twoCalls (second : Bool) : CallSpec :=
  ⟨"s", if second then "dust-attempt:s:2" else "dust-attempt:s:1", { maxOrdersPerSession := 1 }⟩

/-- The first call is inside its run while the second has loaded the state from before. -/
theorem session_guarded_twoCalls : ∃ sys : CallSystem Bool,
    sys.call false = .running ∧ (∃ state, sys.call true = .loaded state) ∧
      (sys.provider.count "s" : ℤ) ≤ 1 := by
  have hload : ReflTransGen (CallStep twoCalls) .init _ := .single (.load true ⟨0⟩ _ rfl rfl)
  have hload' : ReflTransGen (CallStep twoCalls) .init _ := hload.tail (.load false ⟨0⟩ _ rfl rfl)
  have hreserve : ReflTransGen (CallStep twoCalls) .init _ := hload'.tail
    (.reserve false ⟨0⟩ _ _ rfl (Provider.reserveOrFreeze_reserved.mpr ⟨rfl, rfl, rfl⟩))
  have hstart : ReflTransGen (CallStep twoCalls) .init _ := hreserve.tail (.start false rfl)
  have hcaps : SessionCaps twoCalls "s" 1 0 := ⟨fun _ _ => rfl, fun _ _ => rfl⟩
  exact ⟨_, rfl, ⟨_, rfl⟩, (session_guarded hcaps (by decide) hstart).2.1⟩

end Veridex.DustExecution
