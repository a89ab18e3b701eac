import Veridex.DustExecution.Contracts
import Veridex.Lib.Fallible

/-!
# The reconciliation outcome of a run (`dust_execution/facade.py`)

`_reconciliation_outcome` reduces the events of a run to the state its reservation is settled in.
It joins each decision whose order reached the wire with its one submit attempt, and the attempt
with the one reconciliation that carries the same pair of a decision and a venue key. Whatever
does not join fails closed to `ambiguous`.

## Results

* `provesResolved`: what `resolved` says of the events.
* `reconciliationOutcome_definitivelyAbsent`: what a release says of them.
-/

namespace Veridex.DustExecution

open Veridex.Lib

/-- `ReconciliationState`. -/
inductive ReconciliationState where
  | pending
  | resolved
  | ambiguous
  | definitivelyAbsent
  deriving DecidableEq, Repr

/-- The decision of an acknowledgement that is not a dry run's. -/
def LifecycleEvent.submittedDecisionId? : LifecycleEvent → Option String
  | .orderAckEvent e => if e.ackStatus ≠ .dryRunNotSubmitted then some e.decisionId else none
  | _ => none

/-- `submitted_decision_ids`, with repetitions. -/
def submittedDecisionIds (events : List LifecycleEvent) : List String :=
  events.filterMap LifecycleEvent.submittedDecisionId?

/-- The loop that fills `submit_keys`, an association in order of insertion. `none` is its early
return: a second attempt of one decision, or an attempt without a key. -/
def collectSubmitKeys (submitted : List String) :
    List LifecycleEvent → List (String × String) → Option (List (String × String))
  | [], submitKeys => some submitKeys
  | .orderSubmitAttempt e :: events, submitKeys =>
    if e.decisionId ∈ submitted then
      if e.decisionId ∈ submitKeys.map Prod.fst ∨ e.presubmitRecord.venueOrderKey = "" then none
      else collectSubmitKeys submitted events
        (submitKeys ++ [(e.decisionId, e.presubmitRecord.venueOrderKey)])
    else collectSubmitKeys submitted events submitKeys
  | _ :: events, submitKeys => collectSubmitKeys submitted events submitKeys

/-- The reconciled state of an event that carries a pair. -/
def LifecycleEvent.reconciledState? (pair : String × String) : LifecycleEvent → Option UncertainState
  | .realFillReconciliation e =>
    if e.decisionId = pair.1 ∧ e.venueOrderKey = pair.2 then some e.reconciledState else none
  | _ => none

/-- `matches`: the states of the reconciliations that carry a pair. -/
def matchedStates (events : List LifecycleEvent) (pair : String × String) : List UncertainState :=
  events.filterMap (LifecycleEvent.reconciledState? pair)

/-- The loop that fills `states`. `none` is its early return: a pair not matched exactly once. -/
def collectStates (events : List LifecycleEvent) :
    List (String × String) → Option (List UncertainState)
  | [] => some []
  | pair :: submitKeys =>
    match matchedStates events pair with
    | [state] => (collectStates events submitKeys).map (state :: ·)
    | _ => none

/-- `_reconciliation_outcome`. -/
def reconciliationOutcome (events : List LifecycleEvent) : ReconciliationState × Option String :=
  let submitted := submittedDecisionIds events
  if submitted = [] then (.definitivelyAbsent, none)
  else match collectSubmitKeys submitted events [] with
    | none => (.ambiguous, none)
    | some submitKeys =>
      if ¬ ∀ id ∈ submitted, id ∈ submitKeys.map Prod.fst then (.ambiguous, none)
      else match collectStates events submitKeys with
        | none => (.ambiguous, none)
        | some states =>
          let joinKey := match submitKeys with
            | [pair] => some pair.2
            | _ => none
          if UncertainState.ambiguous ∈ states then (.ambiguous, joinKey)
          else if ∀ state ∈ states, state = .definitivelyAbsent then (.definitivelyAbsent, joinKey)
          else (.resolved, joinKey)

/-! ## The joins -/

/-- The pair of an attempt of a submitted decision. -/
def LifecycleEvent.attemptPair? (submitted : List String) : LifecycleEvent → Option (String × String)
  | .orderSubmitAttempt e =>
    if e.decisionId ∈ submitted then some (e.decisionId, e.presubmitRecord.venueOrderKey) else none
  | _ => none

/-- The pairs of the attempts of the submitted decisions. -/
def attemptPairs (submitted : List String) (events : List LifecycleEvent) :
    List (String × String) :=
  events.filterMap (LifecycleEvent.attemptPair? submitted)

/-- The keys collected are the pairs of the attempts, no decision attempted twice. -/
theorem collectSubmitKeys_some {submitted : List String} :
    ∀ {events : List LifecycleEvent} {acc submitKeys : List (String × String)},
    collectSubmitKeys submitted events acc = some submitKeys → (acc.map Prod.fst).Nodup →
      submitKeys = acc ++ attemptPairs submitted events ∧ (submitKeys.map Prod.fst).Nodup
  | [], acc, submitKeys, h, hacc => by
    obtain rfl : acc = submitKeys := by simpa [collectSubmitKeys] using h
    exact ⟨by simp [attemptPairs], hacc⟩
  | event :: events, acc, submitKeys, h, hacc => by
    cases event with
    | orderSubmitAttempt e =>
      rw [collectSubmitKeys] at h
      split_ifs at h with hmem hdup
      · have hnodup : ((acc ++ [(e.decisionId, e.presubmitRecord.venueOrderKey)]).map
            Prod.fst).Nodup := by
          rw [List.map_append, List.nodup_append]
          refine ⟨hacc, by simp, fun a ha b hb hab => hdup (.inl ?_)⟩
          obtain rfl : b = e.decisionId := by simpa using hb
          exact hab ▸ ha
        obtain ⟨hkeys, hn⟩ := collectSubmitKeys_some h hnodup
        refine ⟨?_, hn⟩
        simp [hkeys, attemptPairs, LifecycleEvent.attemptPair?, hmem]
      · obtain ⟨hkeys, hn⟩ := collectSubmitKeys_some h hacc
        refine ⟨?_, hn⟩
        simp [hkeys, attemptPairs, LifecycleEvent.attemptPair?, hmem]
    | sessionRiskSnapshot e | orderSubmitIntent e | orderAckEvent e | orderCancelEvent e
    | orderStatusEvent e | realFillReconciliation e | dustRunLabelEvent e =>
      simp only [collectSubmitKeys] at h
      obtain ⟨hkeys, hn⟩ := collectSubmitKeys_some h hacc
      exact ⟨by rw [hkeys, attemptPairs, attemptPairs, List.filterMap_cons_none rfl], hn⟩

/-- The states collected are the one state of each pair. -/
theorem collectStates_some {events : List LifecycleEvent} :
    ∀ {submitKeys : List (String × String)} {states : List UncertainState},
    collectStates events submitKeys = some states →
      List.Forall₂ (fun pair state => matchedStates events pair = [state]) submitKeys states
  | [], states, h => by
    obtain rfl : [] = states := by simpa [collectStates] using h
    exact .nil
  | pair :: submitKeys, states, h => by
    rw [collectStates] at h
    split at h
    · rename_i state hstate
      obtain ⟨rest, hrest, rfl⟩ := Option.map_eq_some_iff.mp h
      exact .cons hstate (collectStates_some hrest)
    · simp at h

/-- What the outcome says once every join has succeeded. -/
structure Joined (events : List LifecycleEvent) (submitKeys : List (String × String))
    (states : List UncertainState) : Prop where
  keys : submitKeys = attemptPairs (submittedDecisionIds events) events
  nodup : (submitKeys.map Prod.fst).Nodup
  covered : ∀ id ∈ submittedDecisionIds events, id ∈ submitKeys.map Prod.fst
  states : List.Forall₂ (fun pair state => matchedStates events pair = [state]) submitKeys states

/-- **The outcomes**: a release of a run that submitted nothing, a failed join, or the verdict over
the joined states. -/
theorem reconciliationOutcome_cases (events : List LifecycleEvent) :
    (submittedDecisionIds events = [] ∧
        reconciliationOutcome events = (.definitivelyAbsent, none)) ∨
      (submittedDecisionIds events ≠ [] ∧ (reconciliationOutcome events).1 = .ambiguous) ∨
      ∃ submitKeys states, submittedDecisionIds events ≠ [] ∧
        Joined events submitKeys states ∧ UncertainState.ambiguous ∉ states ∧
        (reconciliationOutcome events).1 =
          if ∀ state ∈ states, state = .definitivelyAbsent then .definitivelyAbsent
          else .resolved := by
  by_cases hsub : submittedDecisionIds events = []
  · exact .inl ⟨hsub, by simp [reconciliationOutcome, hsub]⟩
  right
  unfold reconciliationOutcome
  simp only [hsub, if_false]
  cases hkeys : collectSubmitKeys (submittedDecisionIds events) events [] with
  | none => exact .inl ⟨hsub, rfl⟩
  | some submitKeys =>
    by_cases hcov : ∀ id ∈ submittedDecisionIds events, id ∈ submitKeys.map Prod.fst
    · simp only
      rw [if_neg (not_not.mpr hcov)]
      cases hstates : collectStates events submitKeys with
      | none => exact .inl ⟨hsub, rfl⟩
      | some states =>
        by_cases hamb : UncertainState.ambiguous ∈ states
        · exact .inl ⟨hsub, by simp [hamb]⟩
        · have hjoin := collectSubmitKeys_some hkeys (by simp)
          refine .inr ⟨submitKeys, states, hsub,
            ⟨by simpa using hjoin.1, hjoin.2, hcov, collectStates_some hstates⟩, hamb, ?_⟩
          simp only [hamb, if_false]
          split_ifs <;> rfl
    · refine .inl ⟨hsub, ?_⟩
      simp only
      rw [if_pos hcov]

/-- **`resolved`**: every submitted decision joins, none ambiguously, and one is resolved. -/
theorem reconciliationOutcome_resolved {events : List LifecycleEvent}
    (h : (reconciliationOutcome events).1 = .resolved) :
    ∃ submitKeys states, submittedDecisionIds events ≠ [] ∧ Joined events submitKeys states ∧
      UncertainState.ambiguous ∉ states ∧ UncertainState.resolved ∈ states := by
  rcases reconciliationOutcome_cases events with ⟨-, hout⟩ | ⟨-, hout⟩ |
    ⟨submitKeys, states, hsub, hjoin, hamb, hout⟩
  · simp [hout] at h
  · simp [hout] at h
  · refine ⟨submitKeys, states, hsub, hjoin, hamb, ?_⟩
    by_contra hres
    have hall : ∀ state ∈ states, state = .definitivelyAbsent := by
      intro state hstate
      cases state with
      | definitivelyAbsent => rfl
      | resolved => exact absurd hstate hres
      | ambiguous => exact absurd hstate hamb
    simp [hout, if_pos hall] at h

/-- **A release**: nothing was submitted, or every submitted decision joins an absence. -/
theorem reconciliationOutcome_definitivelyAbsent {events : List LifecycleEvent}
    (h : (reconciliationOutcome events).1 = .definitivelyAbsent) :
    submittedDecisionIds events = [] ∨ ∃ submitKeys states, Joined events submitKeys states ∧
      ∀ state ∈ states, state = .definitivelyAbsent := by
  rcases reconciliationOutcome_cases events with ⟨hsub, -⟩ | ⟨-, hout⟩ |
    ⟨submitKeys, states, -, hjoin, -, hout⟩
  · exact .inl hsub
  · simp [hout] at h
  · right
    by_cases hall : ∀ state ∈ states, state = .definitivelyAbsent
    · exact ⟨submitKeys, states, hjoin, hall⟩
    · simp [hout, if_neg hall] at h

/-! ## What a decision is joined with -/

/-- The venue keys of the attempts of a decision. -/
def attemptKeys (events : List LifecycleEvent) (decisionId : String) : List String :=
  events.filterMap fun
    | .orderSubmitAttempt e =>
      if e.decisionId = decisionId then some e.presubmitRecord.venueOrderKey else none
    | _ => none

theorem attemptKeys_eq {submitted : List String} {decisionId : String}
    (hmem : decisionId ∈ submitted) : ∀ events : List LifecycleEvent,
    attemptKeys events decisionId =
      ((attemptPairs submitted events).filter fun pair => pair.1 = decisionId).map Prod.snd
  | [] => rfl
  | event :: events => by
    have ih := attemptKeys_eq hmem events
    unfold attemptKeys attemptPairs at ih ⊢
    cases event with
    | orderSubmitAttempt e =>
      by_cases hid : e.decisionId = decisionId
      · simp [LifecycleEvent.attemptPair?, hid, hmem, ih]
      · by_cases hsub : e.decisionId ∈ submitted <;>
          simp [LifecycleEvent.attemptPair?, hid, hsub, ih]
    | _ => simpa [LifecycleEvent.attemptPair?, List.filterMap_cons] using ih

theorem mem_submitted_of_attemptPairs {submitted : List String} {events : List LifecycleEvent}
    {pair : String × String} (h : pair ∈ attemptPairs submitted events) : pair.1 ∈ submitted := by
  obtain ⟨event, -, hpair⟩ := List.mem_filterMap.mp h
  cases event with
  | orderSubmitAttempt e =>
    simp only [LifecycleEvent.attemptPair?] at hpair
    split_ifs at hpair with hmem
    rw [← Option.some.inj hpair]
    exact hmem
  | _ => simp [LifecycleEvent.attemptPair?] at hpair

/-- A key occurs in one pair of an association without repetitions. -/
theorem filter_key_eq_singleton {pairs : List (String × String)} {key value : String}
    (hnodup : (pairs.map Prod.fst).Nodup) (hmem : (key, value) ∈ pairs) :
    pairs.filter (fun pair => pair.1 = key) = [(key, value)] := by
  induction pairs with
  | nil => simp at hmem
  | cons pair pairs ih =>
    rw [List.map_cons, List.nodup_cons] at hnodup
    rcases List.mem_cons.mp hmem with rfl | hmem
    · have hnone : pairs.filter (fun pair => pair.1 = key) = [] := by
        rw [List.filter_eq_nil_iff]
        intro pair hpair hkey
        exact hnodup.1 (List.mem_map.mpr ⟨pair, hpair, by simpa using hkey⟩)
      simp [hnone]
    · have hne : pair.1 ≠ key := fun heq => hnodup.1 (List.mem_map.mpr ⟨_, hmem, heq.symm⟩)
      simpa [hne] using ih hnodup.2 hmem

/-- The pair of a joined decision is the one of its only attempt. -/
theorem Joined.attempt_eq {events : List LifecycleEvent} {submitKeys : List (String × String)}
    {states : List UncertainState} {pair : String × String} (h : Joined events submitKeys states)
    (hpair : pair ∈ submitKeys) : attemptKeys events pair.1 = [pair.2] := by
  have hmem := mem_submitted_of_attemptPairs (h.keys ▸ hpair)
  rw [attemptKeys_eq hmem, ← h.keys, filter_key_eq_singleton h.nodup hpair]
  rfl

/-- **A submitted decision that joins** has one attempt, and one reconciliation of its pair. -/
theorem Joined.decision {events : List LifecycleEvent} {submitKeys : List (String × String)}
    {states : List UncertainState} {decisionId : String} (h : Joined events submitKeys states)
    (hmem : decisionId ∈ submittedDecisionIds events) :
    ∃ key state, attemptKeys events decisionId = [key] ∧
      matchedStates events (decisionId, key) = [state] ∧ state ∈ states := by
  obtain ⟨pair, hpair, rfl⟩ := List.mem_map.mp (h.covered decisionId hmem)
  obtain ⟨state, hstate, hmatched⟩ := exists_related_of_mem h.states hpair
  exact ⟨pair.2, state, h.attempt_eq hpair, hmatched, hstate⟩

/-- What proves an attempt resolved: every submitted decision has one attempt and one reconciliation
of its pair, none of these is ambiguous, and one is resolved. -/
structure ProvesResolved (events : List LifecycleEvent) : Prop where
  joined : ∀ decisionId ∈ submittedDecisionIds events, ∃ key state,
    attemptKeys events decisionId = [key] ∧
      matchedStates events (decisionId, key) = [state] ∧ state ≠ .ambiguous
  resolved : ∃ decisionId ∈ submittedDecisionIds events, ∃ key,
    attemptKeys events decisionId = [key] ∧ matchedStates events (decisionId, key) = [.resolved]

/-- **A resolved outcome is proved** by the events. -/
theorem provesResolved {events : List LifecycleEvent}
    (h : (reconciliationOutcome events).1 = .resolved) : ProvesResolved events := by
  obtain ⟨submitKeys, states, -, hjoin, hamb, hres⟩ := reconciliationOutcome_resolved h
  constructor
  · intro decisionId hmem
    obtain ⟨key, state, hkey, hmatched, hstate⟩ := hjoin.decision hmem
    exact ⟨key, state, hkey, hmatched, fun heq => hamb (heq ▸ hstate)⟩
  · obtain ⟨pair, hpair, hmatched⟩ := exists_related_of_mem hjoin.states.flip hres
    exact ⟨pair.1, mem_submitted_of_attemptPairs (hjoin.keys ▸ hpair), pair.2,
      hjoin.attempt_eq hpair, hmatched⟩

end Veridex.DustExecution
