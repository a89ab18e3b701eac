import Veridex.Lib.Trace
import Veridex.Strategies.DriftFeatures

/-!
# One model call in flight (`runtime/llm_checkpoint.py`)

`CheckpointPolicy` says when a tick opens a decision checkpoint. `InflightGuard` holds the one
physical call: it polls the call's handle, frees the slot when the call is done, and asks for its
cancellation once when its evidence is too old.

A handle is what it reports at every moment, from any moment on the same once it is done; it may
finish when it likes, and heed a cancellation late or never. `Slot` is the guard with a record of
what was done with the calls, which no code reads.

Results: `Slot.Sound` is kept by `service` (`sound_service`), by a launch into a free slot
(`sound_launched`) and by a decision that was just served (`sound_emit`). Times are rationals.
-/

namespace Veridex.Runtime

open Veridex.Py Veridex.Lib Veridex.Strategies

/-! ## The policy -/

/-- `CheckpointPolicy`. -/
structure CheckpointPolicy where
  cadenceS : ℚ := 45
  evidenceAgeLimitS : ℚ := 30
  featureDeltaThreshold : Option ℚ := none
  cadence_pos : 0 < cadenceS := by norm_num
  limit_pos : 0 < evidenceAgeLimitS := by norm_num
  threshold_pos : ∀ threshold ∈ featureDeltaThreshold, 0 < threshold := by simp

/-- `abs(x)`. -/
def absFloat (x : PyFloat) : PyFloat := if x.lt (.fin 0) then x.neg else x

/-- `is_checkpoint`. -/
def CheckpointPolicy.isCheckpoint (policy : CheckpointPolicy) (now : ℚ)
    (lastCheckpointAt : Option ℚ) (snapshot lastSnapshot : Option DriftFeatureSnapshot) : Bool :=
  match lastCheckpointAt with
  | none => true
  | some last =>
    if policy.cadenceS ≤ now - last then true
    else match policy.featureDeltaThreshold, snapshot, lastSnapshot with
      | some threshold, some snapshot, some lastSnapshot =>
        let delta := absFloat (snapshot.cumLogitDrift.sub lastSnapshot.cumLogitDrift)
        (PyFloat.fin threshold).le delta
      | _, _, _ => false

/-- Without a threshold, a checkpoint after another is a cadence later. -/
theorem CheckpointPolicy.le_of_isCheckpoint {policy : CheckpointPolicy} {now last : ℚ}
    {snapshot lastSnapshot : Option DriftFeatureSnapshot}
    (hthreshold : policy.featureDeltaThreshold = none)
    (h : policy.isCheckpoint now (some last) snapshot lastSnapshot = true) :
    policy.cadenceS ≤ now - last := by
  simp only [isCheckpoint, hthreshold] at h
  split_ifs at h with hcadence
  · exact hcadence

/-! ## Calls -/

/-- How a call ended. -/
inductive Ending (ρ : Type) where
  | cancelled
  | raised (error : PyExc)
  | returned (raw : ρ)

/-- `CallHandle`: how the call ended, as it reports it at each moment; `none` is not done. -/
structure CallHandle (ρ : Type) where
  reports : ℕ → Option (Ending ρ)
  stays : ∀ {m n : ℕ}, m ≤ n → ∀ ending, reports m = some ending → reports n = some ending

/-- A handle that is done when it is made. -/
def CallHandle.done {ρ : Type} (ending : Ending ρ) : CallHandle ρ where
  reports := fun _ => some ending
  stays := fun _ _ h => h

/-- `_ActiveCall`, with the number of the call. -/
structure ActiveCall (ρ : Type) where
  call : ℕ
  handle : CallHandle ρ
  evidenceHash : String
  capturedAt : ℚ
  cancelRequested : Bool := false

/-- `ServiceOutcome`, with the number of a call that completed fresh. -/
inductive ServiceOutcome (ρ : Type) where
  | idle
  | inFlight (evidenceHash : String)
  | awaitingConfirmation (evidenceHash : String)
  | confirmedTerminated (evidenceHash : String)
  | completedFresh (call : ℕ) (raw : ρ) (evidenceHash : String)
  | completedStale (evidenceHash : String)
  | failed (error : PyExc) (evidenceHash : String)

/-- `InflightGuard`. -/
structure InflightGuard (ρ : Type) where
  limit : ℚ
  call : Option (ActiveCall ρ) := none

namespace InflightGuard

variable {ρ : Type}

/-- `busy`. -/
def busy (g : InflightGuard ρ) : Bool := g.call.isSome

/-- `evidence_coordinate`. -/
def evidenceCoordinate (g : InflightGuard ρ) : Option String := g.call.map ActiveCall.evidenceHash

/-- `launch`: the slot is taken at the clock's reading. -/
def launch (g : InflightGuard ρ) (call : ℕ) (handle : CallHandle ρ) (evidenceHash : String)
    (reading : ℚ) : Except PyExc (InflightGuard ρ) :=
  if g.busy then .error ⟨.exception, "cannot launch: a physical call is already in flight"⟩
  else .ok { g with call := some ⟨call, handle, evidenceHash, reading, false⟩ }

/-- `service` of a call that reports `ending`, at a reading of the clock; and whether the call's
cancellation is asked for. -/
def serviceCall (g : InflightGuard ρ) (call : ActiveCall ρ) (ending : Option (Ending ρ))
    (reading : ℚ) : ServiceOutcome ρ × InflightGuard ρ × Bool :=
  let free := { g with call := none }
  let age := reading - call.capturedAt
  match ending with
  | some ending =>
    if call.cancelRequested then (.confirmedTerminated call.evidenceHash, free, false)
    else match ending with
      | .cancelled => (.confirmedTerminated call.evidenceHash, free, false)
      | .raised error => (.failed error call.evidenceHash, free, false)
      | .returned raw =>
        if age ≤ g.limit then (.completedFresh call.call raw call.evidenceHash, free, false)
        else (.completedStale call.evidenceHash, free, false)
  | none =>
    if g.limit < age then
      (.awaitingConfirmation call.evidenceHash,
        { g with call := some { call with cancelRequested := true } }, !call.cancelRequested)
    else (.inFlight call.evidenceHash, g, false)

end InflightGuard

/-! ## The slot and its record -/

/-- What was done with a call. -/
inductive CallEvent (ρ α : Type) where
  | launched (call : ℕ) (now : ℚ) (moment : ℕ)
  | observed (call : ℕ) (ending : Option (Ending ρ)) (age : ℚ)
  | cancelled (call : ℕ)
  | emitted (call : ℕ) (decision : α)

/-- The call an event is about. -/
def CallEvent.call {ρ α : Type} : CallEvent ρ α → ℕ
  | launched call _ _ | observed call _ _ | cancelled call | emitted call _ => call

/-- What a service adds to the record: neither a launch nor a decision. -/
def CallEvent.Passive {ρ α : Type} : CallEvent ρ α → Prop
  | .launched _ _ _ | .emitted _ _ => False
  | .observed _ _ _ | .cancelled _ => True

/-- The guard, with the handles launched so far, what was done with them, and the moment. -/
structure Slot (ρ α : Type) where
  guard : InflightGuard ρ
  handles : List (CallHandle ρ) := []
  history : List (CallEvent ρ α) := []
  moment : ℕ := 0

namespace Slot

variable {ρ α : Type}

/-- Time passes. -/
def advance (s : Slot ρ α) : Slot ρ α := { s with moment := s.moment + 1 }

@[simp] theorem advance_moment (s : Slot ρ α) : s.advance.moment = s.moment + 1 := rfl

@[simp] theorem advance_history (s : Slot ρ α) : s.advance.history = s.history := rfl

@[simp] theorem advance_guard (s : Slot ρ α) : s.advance.guard = s.guard := rfl

/-- `self._guard.service()`, at a reading of the clock. -/
def service (s : Slot ρ α) (reading : ℚ) : ServiceOutcome ρ × Slot ρ α :=
  match s.guard.call with
  | none => (.idle, s)
  | some call =>
    let ending := call.handle.reports s.moment
    let (outcome, guard, cancels) := s.guard.serviceCall call ending reading
    let observed := s.history ++ [.observed call.call ending (reading - call.capturedAt)]
    (outcome, { s with
      guard := guard
      history := if cancels then observed ++ [.cancelled call.call] else observed })

/-- `self._guard.launch(handle)` of a handle launched at a tick of time `now`. -/
def launch (s : Slot ρ α) (handle : CallHandle ρ) (evidenceHash : String) (now reading : ℚ) :
    Except PyExc (Slot ρ α) := do
  let call := s.handles.length
  let guard ← s.guard.launch call handle evidenceHash reading
  return { s with
    guard := guard
    handles := s.handles ++ [handle]
    history := s.history ++ [.launched call now s.moment] }

/-- The decision of a call is emitted. -/
def emit (s : Slot ρ α) (call : ℕ) (decision : α) : Slot ρ α :=
  { s with history := s.history ++ [.emitted call decision] }

/-! ## What the record says -/

/-- Each event, after those before it. A call is launched after every earlier one was observed done;
it is observed until it is done; it is cancelled once, when it was just observed too old; and its
decision is emitted once, when it was just observed done in time, never having been too old. -/
def Orderly (limit : ℚ) (decide : ρ → α) (pre : List (CallEvent ρ α)) : CallEvent ρ α → Prop
  | .launched call _ _ => (∀ event ∈ pre, event.call < call) ∧
      ∀ j < call, ∃ ending age, .observed j (some ending) age ∈ pre
  | .observed call _ _ => ∀ ending age, .observed call (some ending) age ∉ pre
  | .cancelled call => .cancelled call ∉ pre ∧
      ∃ before age, pre = before ++ [.observed call none age] ∧ limit < age
  | .emitted call decision => (∀ decision', .emitted call decision' ∉ pre) ∧
      .cancelled call ∉ pre ∧ (∀ age, .observed call none age ∈ pre → age ≤ limit) ∧
      ∃ before raw age, pre = before ++ [.observed call (some (.returned raw)) age] ∧
        age ≤ limit ∧ decision = decide raw

/-- The record so far, and how the guard stands to it. -/
structure Sound (limit : ℚ) (decide : ρ → α) (s : Slot ρ α) : Prop where
  limit_eq : s.guard.limit = limit
  orderly : EachAfter (Orderly limit decide) s.history
  known : ∀ event ∈ s.history, event.call < s.handles.length
  /-- What was observed done is what its handle reports, from then on. -/
  truthful : ∀ i ending age, .observed i (some ending) age ∈ s.history →
    ∃ handle, s.handles[i]? = some handle ∧ handle.reports s.moment = some ending
  /-- When a call was launched, every earlier one was done. -/
  alone : ∀ call now moment, .launched call now moment ∈ s.history → ∀ j < call,
    ∃ handle ending, s.handles[j]? = some handle ∧ handle.reports moment = some ending
  /-- A call observed too old was cancelled. -/
  expired : ∀ i age, .observed i none age ∈ s.history → limit < age → .cancelled i ∈ s.history
  /-- Every call but the active one was observed done. -/
  finished : ∀ i < s.handles.length, (∀ c, s.guard.call = some c → c.call ≠ i) →
    ∃ ending age, .observed i (some ending) age ∈ s.history
  active : ∀ c, s.guard.call = some c → c.call + 1 = s.handles.length ∧
    s.handles[c.call]? = some c.handle ∧
    (∀ ending age, .observed c.call (some ending) age ∉ s.history) ∧
    (∀ decision, .emitted c.call decision ∉ s.history) ∧
    (c.cancelRequested = true ↔ .cancelled c.call ∈ s.history)

variable {limit reading now : ℚ} {decide : ρ → α} {s s' : Slot ρ α}

theorem sound_init (limit : ℚ) (decide : ρ → α) : Sound limit decide ⟨⟨limit, none⟩, [], [], 0⟩ where
  limit_eq := rfl
  orderly := eachAfter_nil
  known := by simp
  truthful := by simp
  alone := by simp
  expired := by simp
  finished := by simp
  active := by simp

theorem sound_advance (h : Sound limit decide s) : Sound limit decide s.advance where
  limit_eq := h.limit_eq
  orderly := h.orderly
  known := h.known
  truthful := by
    intro i ending age hmem
    obtain ⟨handle, hhandle, hreports⟩ := h.truthful i ending age hmem
    exact ⟨handle, hhandle, handle.stays (Nat.le_succ _) ending hreports⟩
  alone := h.alone
  expired := h.expired
  finished := h.finished
  active := h.active

/-- One more event that is orderly. -/
theorem orderly_snoc {log : List (CallEvent ρ α)} {event : CallEvent ρ α}
    (h : EachAfter (Orderly limit decide) log) (hevent : Orderly limit decide log event) :
    EachAfter (Orderly limit decide) (log ++ [event]) :=
  eachAfter_append.mpr ⟨h, eachAfter_singleton.mpr (by simpa using hevent)⟩

section Served

variable {c : ActiveCall ρ} {ending : Ending ρ}

/-- The active call was never observed too old unless it was cancelled. -/
theorem Sound.young (h : Sound limit decide s) (hc : s.guard.call = some c)
    (hrequested : c.cancelRequested = false) :
    ∀ age, .observed c.call none age ∈ s.history → age ≤ limit := by
  intro age hmem
  by_contra hold
  have hcancelled := h.expired c.call age hmem (not_le.mp hold)
  have hrequested' := (h.active c hc).2.2.2.2.mpr hcancelled
  rw [hrequested] at hrequested'
  exact nomatch hrequested'

/-- **The active call is observed done**, and the slot is freed. -/
theorem sound_done (h : Sound limit decide s) (hc : s.guard.call = some c)
    (hreports : c.handle.reports s.moment = some ending) (age : ℚ) :
    Sound limit decide { s with
      guard := { s.guard with call := none }
      history := s.history ++ [.observed c.call (some ending) age] } := by
  obtain ⟨hlast, hhandle, hpending, -, -⟩ := h.active c hc
  constructor
  · exact h.limit_eq
  · exact orderly_snoc h.orderly hpending
  · intro event hevent
    rcases List.mem_append.mp hevent with hevent | hevent
    · exact h.known event hevent
    · obtain rfl := List.mem_singleton.mp hevent
      exact Nat.lt_of_succ_le hlast.le
  · intro i ending' age' hmem
    rcases List.mem_append.mp hmem with hmem | hmem
    · exact h.truthful i ending' age' hmem
    · obtain ⟨rfl, heq, -⟩ := CallEvent.observed.inj (List.mem_singleton.mp hmem)
      obtain rfl := Option.some.inj heq
      exact ⟨c.handle, hhandle, hreports⟩
  · intro call now moment hmem
    rcases List.mem_append.mp hmem with hmem | hmem
    · exact h.alone call now moment hmem
    · exact nomatch List.mem_singleton.mp hmem
  · intro i age' hmem hold
    rcases List.mem_append.mp hmem with hmem | hmem
    · exact List.mem_append_left _ (h.expired i age' hmem hold)
    · simp at hmem
  · intro i hi _
    by_cases heq : c.call = i
    · subst heq
      exact ⟨ending, age, List.mem_append_right _ (List.mem_singleton_self _)⟩
    · have hother : ∀ c', s.guard.call = some c' → c'.call ≠ i := by
        intro c' hc'
        obtain rfl := Option.some.inj (hc.symm.trans hc')
        exact heq
      obtain ⟨ending', age', hmem⟩ := h.finished i hi hother
      exact ⟨ending', age', List.mem_append_left _ hmem⟩
  · intro c' hc'
    exact nomatch hc'

/-- **The active call is observed pending**, not too old or already cancelled. -/
theorem sound_pending (h : Sound limit decide s) (hc : s.guard.call = some c) {age : ℚ}
    (hage : limit < age → c.cancelRequested = true) :
    Sound limit decide { s with history := s.history ++ [.observed c.call none age] } := by
  obtain ⟨hlast, hhandle, hpending, hemitted, hrequested⟩ := h.active c hc
  constructor
  · exact h.limit_eq
  · exact orderly_snoc h.orderly hpending
  · intro event hevent
    rcases List.mem_append.mp hevent with hevent | hevent
    · exact h.known event hevent
    · obtain rfl := List.mem_singleton.mp hevent
      exact Nat.lt_of_succ_le hlast.le
  · intro i ending' age' hmem
    rcases List.mem_append.mp hmem with hmem | hmem
    · exact h.truthful i ending' age' hmem
    · simp at hmem
  · intro call now moment hmem
    rcases List.mem_append.mp hmem with hmem | hmem
    · exact h.alone call now moment hmem
    · exact nomatch List.mem_singleton.mp hmem
  · intro i age' hmem hold
    rcases List.mem_append.mp hmem with hmem | hmem
    · exact List.mem_append_left _ (h.expired i age' hmem hold)
    · obtain ⟨rfl, -, rfl⟩ := CallEvent.observed.inj (List.mem_singleton.mp hmem)
      exact List.mem_append_left _ (hrequested.mp (hage hold))
  · intro i hi hother
    obtain ⟨ending', age', hmem⟩ := h.finished i hi hother
    exact ⟨ending', age', List.mem_append_left _ hmem⟩
  · intro c' hc'
    obtain rfl := Option.some.inj (hc.symm.trans hc')
    exact ⟨hlast, hhandle, by simpa using hpending, by simpa using hemitted,
      by simpa using hrequested⟩

/-- **The active call is cancelled** when it is observed too old for the first time. -/
theorem sound_cancel (h : Sound limit decide s) (hc : s.guard.call = some c) {age : ℚ}
    (hold : limit < age) (hrequested : c.cancelRequested = false) :
    Sound limit decide { s with
      guard := { s.guard with call := some { c with cancelRequested := true } }
      history := s.history ++ [.observed c.call none age] ++ [.cancelled c.call] } := by
  obtain ⟨hlast, hhandle, hpending, hemitted, hcancelled⟩ := h.active c hc
  have hfirst : CallEvent.cancelled c.call ∉ s.history := by
    rw [← hcancelled, hrequested]
    exact Bool.false_ne_true
  constructor
  · exact h.limit_eq
  · refine orderly_snoc (orderly_snoc h.orderly hpending) ⟨by simpa using hfirst, ?_⟩
    exact ⟨s.history, age, rfl, hold⟩
  · intro event hevent
    rw [List.append_assoc] at hevent
    rcases List.mem_append.mp hevent with hevent | hevent
    · exact h.known event hevent
    · rcases List.mem_pair.mp hevent with rfl | rfl
      · exact Nat.lt_of_succ_le hlast.le
      · exact Nat.lt_of_succ_le hlast.le
  · intro i ending' age' hmem
    exact h.truthful i ending' age' (by simpa using hmem)
  · intro call now moment hmem
    exact h.alone call now moment (by simpa using hmem)
  · intro i age' hmem hold'
    rw [List.append_assoc] at hmem ⊢
    rcases List.mem_append.mp hmem with hmem | hmem
    · exact List.mem_append_left _ (h.expired i age' hmem hold')
    · rcases List.mem_pair.mp hmem with heq | heq
      · obtain ⟨rfl, -, -⟩ := CallEvent.observed.inj heq
        simp
      · exact nomatch heq
  · intro i hi hother
    have hother' : ∀ c', s.guard.call = some c' → c'.call ≠ i := by
      intro c' hc'
      obtain rfl := Option.some.inj (hc.symm.trans hc')
      exact hother { c with cancelRequested := true } rfl
    obtain ⟨ending', age', hmem⟩ := h.finished i hi hother'
    exact ⟨ending', age', by simp [hmem]⟩
  · intro c' hc'
    obtain rfl := Option.some.inj hc'
    exact ⟨hlast, hhandle, by simpa using hpending, by simpa using hemitted, by simp⟩

theorem requested_eq (h : c.cancelRequested = true) : { c with cancelRequested := true } = c := by
  obtain ⟨call, handle, evidenceHash, capturedAt, requested⟩ := c
  simp only at h
  rw [h]

/-- The record just says that a call was observed done in time, and its decision is not out. -/
structure Served (limit : ℚ) (call : ℕ) (raw : ρ) (s : Slot ρ α) : Prop where
  fresh : ∃ before age, s.history = before ++ [.observed call (some (.returned raw)) age] ∧
    age ≤ limit
  kept : .cancelled call ∉ s.history
  young : ∀ age, .observed call none age ∈ s.history → age ≤ limit
  silent : ∀ decision, .emitted call decision ∉ s.history
  known : call < s.handles.length

/-- What a service says of the slot it leaves. -/
def Leaves (limit : ℚ) (s s' : Slot ρ α) : ServiceOutcome ρ → Prop
  | .idle => s.guard.call = none ∧ s' = s
  | .inFlight _ | .awaitingConfirmation _ => ∃ c c', s.guard.call = some c ∧
      s'.guard.call = some c' ∧ c'.call = c.call ∧ c'.evidenceHash = c.evidenceHash
  | .completedFresh call raw evidenceHash => s'.guard.call = none ∧ Served limit call raw s' ∧
      ∃ c, s.guard.call = some c ∧ c.call = call ∧ c.evidenceHash = evidenceHash
  | .confirmedTerminated _ | .completedStale _ | .failed _ _ =>
      s'.guard.call = none ∧ ∃ c, s.guard.call = some c

/-- **A service**: the record stays sound, and says what the outcome does. -/
theorem sound_service (h : Sound limit decide s) {outcome : ServiceOutcome ρ}
    (hserve : s.service reading = (outcome, s')) :
    Sound limit decide s' ∧ Leaves limit s s' outcome ∧ s'.handles = s.handles ∧
      s'.moment = s.moment := by
  unfold service at hserve
  cases hc : s.guard.call with
  | none =>
    rw [hc] at hserve
    obtain ⟨rfl, rfl⟩ := Prod.mk.inj hserve
    exact ⟨h, ⟨hc, rfl⟩, rfl, rfl⟩
  | some c =>
    rw [hc] at hserve
    obtain ⟨hlast, -, -, hemitted, hcancelled⟩ := h.active c hc
    cases hreports : c.handle.reports s.moment with
    | some ending =>
      have hdone := sound_done h hc hreports (reading - c.capturedAt)
      cases hrequested : c.cancelRequested with
      | true =>
        simp only [hreports, InflightGuard.serviceCall, hrequested, if_true] at hserve
        obtain ⟨rfl, rfl⟩ := Prod.mk.inj hserve
        exact ⟨hdone, ⟨rfl, c, hc⟩, rfl, rfl⟩
      | false =>
        cases ending with
        | cancelled =>
          simp only [hreports, InflightGuard.serviceCall, hrequested] at hserve
          obtain ⟨rfl, rfl⟩ := Prod.mk.inj hserve
          exact ⟨hdone, ⟨rfl, c, hc⟩, rfl, rfl⟩
        | raised error =>
          simp only [hreports, InflightGuard.serviceCall, hrequested] at hserve
          obtain ⟨rfl, rfl⟩ := Prod.mk.inj hserve
          exact ⟨hdone, ⟨rfl, c, hc⟩, rfl, rfl⟩
        | returned raw =>
          by_cases hage : reading - c.capturedAt ≤ s.guard.limit
          · simp only [hreports, InflightGuard.serviceCall, hrequested, hage, if_true] at hserve
            obtain ⟨rfl, rfl⟩ := Prod.mk.inj hserve
            have hkept : CallEvent.cancelled c.call ∉ s.history := by
              rw [← hcancelled, hrequested]
              exact Bool.false_ne_true
            refine ⟨hdone, ⟨rfl, ?_, c, hc, rfl, rfl⟩, rfl, rfl⟩
            exact {
              fresh := ⟨s.history, _, rfl, h.limit_eq ▸ hage⟩
              kept := by simpa using hkept
              young := by simpa using h.young hc hrequested
              silent := by simpa using hemitted
              known := Nat.lt_of_succ_le hlast.le }
          · simp only [hreports, InflightGuard.serviceCall, hrequested, hage, if_false] at hserve
            obtain ⟨rfl, rfl⟩ := Prod.mk.inj hserve
            exact ⟨hdone, ⟨rfl, c, hc⟩, rfl, rfl⟩
    | none =>
      by_cases hage : s.guard.limit < reading - c.capturedAt
      · cases hrequested : c.cancelRequested with
        | true =>
          simp only [hreports, InflightGuard.serviceCall, hage, if_true, hrequested] at hserve
          obtain ⟨rfl, rfl⟩ := Prod.mk.inj hserve
          have hguard : ({ s.guard with call := some { c with cancelRequested := true } } :
              InflightGuard ρ) = s.guard := by
            rw [requested_eq hrequested, ← hc]
          rw [hguard]
          exact ⟨sound_pending h hc fun _ => hrequested, ⟨c, c, hc, hc, rfl, rfl⟩, rfl, rfl⟩
        | false =>
          simp only [hreports, InflightGuard.serviceCall, hage, if_true, hrequested] at hserve
          obtain ⟨rfl, rfl⟩ := Prod.mk.inj hserve
          exact ⟨sound_cancel h hc (h.limit_eq ▸ hage) hrequested,
            ⟨c, _, hc, rfl, rfl, rfl⟩, rfl, rfl⟩
      · simp only [hreports, InflightGuard.serviceCall, hage, if_false] at hserve
        obtain ⟨rfl, rfl⟩ := Prod.mk.inj hserve
        exact ⟨sound_pending h hc fun hold => absurd (h.limit_eq ▸ hold) hage,
          ⟨c, c, hc, hc, rfl, rfl⟩, rfl, rfl⟩

end Served

/-- The slot with a call launched into it. -/
def launched (s : Slot ρ α) (handle : CallHandle ρ) (evidenceHash : String) (now reading : ℚ) :
    Slot ρ α :=
  { s with
    guard := { s.guard with call := some ⟨s.handles.length, handle, evidenceHash, reading, false⟩ }
    handles := s.handles ++ [handle]
    history := s.history ++ [.launched s.handles.length now s.moment] }

theorem launch_eq (hfree : s.guard.call = none) (handle : CallHandle ρ) (evidenceHash : String)
    (now reading : ℚ) :
    s.launch handle evidenceHash now reading = .ok (s.launched handle evidenceHash now reading) := by
  simp [launch, launched, InflightGuard.launch, InflightGuard.busy, hfree, bind, Except.bind, pure,
    Except.pure]

/-- **A launch into a free slot.** -/
theorem sound_launched (h : Sound limit decide s) (hfree : s.guard.call = none)
    (handle : CallHandle ρ) (evidenceHash : String) (now reading : ℚ) :
    Sound limit decide (s.launched handle evidenceHash now reading) := by
  have hdone : ∀ j < s.handles.length, ∃ ending age, .observed j (some ending) age ∈ s.history :=
    fun j hj => h.finished j hj (by simp [hfree])
  have hkeep : ∀ {j : ℕ} {other : CallHandle ρ}, s.handles[j]? = some other →
      (s.handles ++ [handle])[j]? = some other := by
    intro j other hother
    rw [List.getElem?_append_left (List.getElem?_eq_some_iff.mp hother).1, hother]
  have hnew : ∀ event ∈ s.history, event.call ≠ s.handles.length :=
    fun event hevent => (h.known event hevent).ne
  constructor
  · exact h.limit_eq
  · exact orderly_snoc h.orderly ⟨h.known, hdone⟩
  · intro event hevent
    rw [launched, List.length_append, List.length_singleton]
    rcases List.mem_append.mp hevent with hevent | hevent
    · exact (h.known event hevent).trans (Nat.lt_succ_self _)
    · obtain rfl := List.mem_singleton.mp hevent
      exact Nat.lt_succ_self _
  · intro i ending age hmem
    obtain ⟨other, hother, hreports⟩ := h.truthful i ending age (by simpa [launched] using hmem)
    exact ⟨other, hkeep hother, hreports⟩
  · intro call now' moment hmem j hj
    rcases List.mem_append.mp hmem with hmem | hmem
    · obtain ⟨other, ending, hother, hreports⟩ := h.alone call now' moment hmem j hj
      exact ⟨other, ending, hkeep hother, hreports⟩
    · obtain ⟨rfl, -, rfl⟩ := CallEvent.launched.inj (List.mem_singleton.mp hmem)
      obtain ⟨ending, age, hmem⟩ := hdone j hj
      obtain ⟨other, hother, hreports⟩ := h.truthful j ending age hmem
      exact ⟨other, ending, hkeep hother, hreports⟩
  · intro i age hmem hold
    have hmem' : CallEvent.observed i none age ∈ s.history := by simpa [launched] using hmem
    exact List.mem_append_left _ (h.expired i age hmem' hold)
  · intro i hi hother
    rw [launched, List.length_append, List.length_singleton] at hi
    have hne : s.handles.length ≠ i := hother _ rfl
    obtain ⟨ending, age, hmem⟩ := hdone i (by omega)
    exact ⟨ending, age, List.mem_append_left _ hmem⟩
  · intro c hc
    obtain rfl := Option.some.inj hc
    have habsent : ∀ event ∈ s.history ++ [CallEvent.launched s.handles.length now s.moment],
        (∀ now' moment', event ≠ .launched s.handles.length now' moment') →
        event.call ≠ s.handles.length := by
      intro event hevent hlaunched
      rcases List.mem_append.mp hevent with hevent | hevent
      · exact hnew event hevent
      · exact absurd (List.mem_singleton.mp hevent) (hlaunched _ _)
    refine ⟨by simp [launched], by simp [launched], ?_, ?_, ?_⟩
    · intro ending age hmem
      exact habsent _ hmem (by simp) rfl
    · intro decision hmem
      exact habsent _ hmem (by simp) rfl
    · constructor
      · exact fun h => nomatch h
      · exact fun hmem => absurd rfl (habsent _ hmem (by simp))

/-- **A decision that was just served** goes out. -/
theorem sound_emit {call : ℕ} {raw : ρ} (h : Sound limit decide s) (hfree : s.guard.call = none)
    (hserved : Served limit call raw s) : Sound limit decide (s.emit call (decide raw)) := by
  obtain ⟨before, age, hlast, hage⟩ := hserved.fresh
  constructor
  · exact h.limit_eq
  · exact orderly_snoc h.orderly ⟨hserved.silent, hserved.kept, hserved.young,
      before, raw, age, hlast, hage, rfl⟩
  · intro event hevent
    rcases List.mem_append.mp hevent with hevent | hevent
    · exact h.known event hevent
    · obtain rfl := List.mem_singleton.mp hevent
      exact hserved.known
  · intro i ending age' hmem
    exact h.truthful i ending age' (by simpa [emit] using hmem)
  · intro call' now' moment hmem
    exact h.alone call' now' moment (by simpa [emit] using hmem)
  · intro i age' hmem hold
    exact List.mem_append_left _ (h.expired i age' (by simpa [emit] using hmem) hold)
  · intro i hi hother
    obtain ⟨ending, age', hmem⟩ := h.finished i hi hother
    exact ⟨ending, age', List.mem_append_left _ hmem⟩
  · intro c hc
    exact nomatch hfree.symm.trans hc

/-- A service adds no launch and no decision to the record. -/
theorem service_history {outcome : ServiceOutcome ρ} (hserve : s.service reading = (outcome, s')) :
    ∃ events, s'.history = s.history ++ events ∧ ∀ event ∈ events, event.Passive := by
  unfold service at hserve
  cases hc : s.guard.call with
  | none =>
    rw [hc] at hserve
    obtain ⟨-, rfl⟩ := Prod.mk.inj hserve
    exact ⟨[], by simp, by simp⟩
  | some c =>
    simp only [hc] at hserve
    generalize s.guard.serviceCall c (c.handle.reports s.moment) reading = served at hserve
    obtain ⟨outcome', guard, cancels⟩ := served
    obtain ⟨-, rfl⟩ := Prod.mk.inj hserve
    cases cancels with
    | true => exact ⟨[_, _], List.append_assoc .., by simp [CallEvent.Passive]⟩
    | false => exact ⟨[_], rfl, by simp [CallEvent.Passive]⟩

/-! ## What it says of every call -/

/-- One call in flight: what the record says of every call. -/
structure OneInFlight (limit : ℚ) (decide : ρ → α) (s : Slot ρ α) : Prop where
  /-- When a call is launched, every earlier handle is done. -/
  alone : ∀ call now moment, .launched call now moment ∈ s.history → ∀ j < call,
    ∃ handle ending, s.handles[j]? = some handle ∧ handle.reports moment = some ending
  /-- The decision of a call is emitted once, right after the call was first observed done, in time
  and not cancelled. -/
  emitted : ∀ pre call decision post, s.history = pre ++ .emitted call decision :: post →
    (∀ decision', .emitted call decision' ∉ pre ++ post) ∧ .cancelled call ∉ s.history ∧
    ∃ before raw age, pre = before ++ [.observed call (some (.returned raw)) age] ∧
      (∀ ending age, .observed call (some ending) age ∉ before) ∧ age ≤ limit ∧
      decision = decide raw
  /-- A call that was observed too old is cancelled once, and no decision of it is emitted. -/
  expired : ∀ call age, .observed call none age ∈ s.history → limit < age →
    (∃ pre post, s.history = pre ++ .cancelled call :: post ∧ .cancelled call ∉ pre ++ post) ∧
    ∀ decision, .emitted call decision ∉ s.history

/-- A call that was cancelled and one whose decision went out are not the same. -/
theorem not_cancelled_of_emitted {log pre post : List (CallEvent ρ α)} {call : ℕ} {decision : α}
    (h : EachAfter (Orderly limit decide) log) (hlog : log = pre ++ .emitted call decision :: post) :
    CallEvent.cancelled call ∉ log := by
  obtain ⟨-, hkept, -, before, raw, age, hpre, -⟩ := h pre _ post hlog
  intro hmem
  obtain ⟨pre', post', hsplit⟩ := List.append_of_mem hmem
  obtain ⟨-, before', age', hpre', -⟩ := h pre' _ post' hsplit
  have hdone : CallEvent.observed call (some (.returned raw)) age ∈ pre := by simp [hpre]
  -- the cancellation comes after the decision, and the observation before it is of a call not done
  have hafter : CallEvent.observed call (some (.returned raw)) age ∈ before' := by
    have hmem' : CallEvent.observed call (some (.returned raw)) age ∈ pre' := by
      rw [hlog] at hsplit
      rcases List.append_eq_append_iff.mp hsplit with ⟨mid, rfl, -⟩ | ⟨mid, hpreEq, hmid⟩
      · exact List.mem_append_left _ hdone
      · cases mid with
        | nil =>
          rw [List.append_nil] at hpreEq
          exact hpreEq ▸ hdone
        | cons event mid =>
          obtain ⟨rfl, -⟩ := List.cons.inj hmid
          exact absurd (by simp [hpreEq]) hkept
    rw [hpre'] at hmem'
    rcases List.mem_append.mp hmem' with hmem' | hmem'
    · exact hmem'
    · simp at hmem'
  exact h before' (.observed call none age') (.cancelled call :: post') (by simp [hsplit, hpre'])
    (.returned raw) age hafter

/-- **One call in flight**, of every sound record. -/
theorem Sound.oneInFlight (h : Sound limit decide s) : OneInFlight limit decide s where
  alone := h.alone
  emitted := by
    intro pre call decision post hhistory
    obtain ⟨hsilent, -, -, before, raw, age, hpre, hage, hdecision⟩ :=
      h.orderly pre _ post hhistory
    refine ⟨?_, not_cancelled_of_emitted h.orderly hhistory, before, raw, age, hpre, ?_, hage,
      hdecision⟩
    · intro decision' hmem
      rcases List.mem_append.mp hmem with hmem | hmem
      · exact hsilent decision' hmem
      · obtain ⟨mid, rest, rfl⟩ := List.append_of_mem hmem
        obtain ⟨hsilent', -⟩ := h.orderly (pre ++ .emitted call decision :: mid)
          (.emitted call decision') rest
          (by simp [hhistory])
        exact hsilent' decision (by simp)
    · exact h.orderly before (.observed call (some (.returned raw)) age)
        (.emitted call decision :: post) (by simp [hhistory, hpre])
  expired := by
    intro call age hmem hold
    have hcancelled := h.expired call age hmem hold
    constructor
    · obtain ⟨pre, post, hhistory⟩ := List.append_of_mem hcancelled
      refine ⟨pre, post, hhistory, ?_⟩
      intro hagain
      rcases List.mem_append.mp hagain with hagain | hagain
      · exact (h.orderly pre _ post hhistory).1 hagain
      · obtain ⟨mid, rest, rfl⟩ := List.append_of_mem hagain
        have horder := h.orderly (pre ++ .cancelled call :: mid) (.cancelled call) rest
          (by simp [hhistory])
        exact horder.1 (by simp)
    · intro decision hemitted
      obtain ⟨pre, post, hhistory⟩ := List.append_of_mem hemitted
      exact not_cancelled_of_emitted h.orderly hhistory hcancelled

/-- The launches of a record are a cadence apart. -/
def Spaced (cadence : ℚ) (pre : List (CallEvent ρ α)) : CallEvent ρ α → Prop
  | .launched _ now _ => ∀ call now' moment, .launched call now' moment ∈ pre → cadence ≤ now - now'
  | _ => True

/-- A service keeps the launches apart, and they are those before it. -/
theorem service_spaced {cadence : ℚ} {outcome : ServiceOutcome ρ}
    (hspaced : EachAfter (Spaced cadence) s.history) (hserve : s.service reading = (outcome, s')) :
    EachAfter (Spaced cadence) s'.history ∧ ∀ call now moment,
      .launched call now moment ∈ s'.history → .launched call now moment ∈ s.history := by
  obtain ⟨events, hhistory, hpassive⟩ := service_history hserve
  rw [hhistory]
  constructor
  · refine eachAfter_append.mpr ⟨hspaced, eachAfter_of_forall fun event hevent pre => ?_⟩
    cases event with
    | launched call now moment => exact (hpassive _ hevent).elim
    | observed _ _ _ | cancelled _ | emitted _ _ => trivial
  · intro call now moment hmem
    rcases List.mem_append.mp hmem with hmem | hmem
    · exact hmem
    · exact (hpassive _ hmem).elim

end Slot

end Veridex.Runtime
