import Veridex.Lib.Json.RoundTrip
import Veridex.Py.Basic

/-!
# Canonical serialization and the evidence hash (`runtime/evidence.py`)

An event is a dictionary. `computeEvidenceHash` is the digest of the canonical text of the events in
the order of their `sequence_no`; it raises where two events share one. The digest itself is taken
as given.

Results: `sortBySequence_eq` (sorting finds the one order in which the numbers increase) and
`computeEvidenceHash_increasing`.
-/

namespace Veridex.Runtime

open Veridex.Py Veridex.Lib

variable {F : Type}

/-- A Python dictionary with string keys. -/
abbrev Dict (F : Type) := List (String × Json F)

/-- An event's `sequence_no`, where it is an int. -/
def sequenceNo (event : Dict F) : Option ℤ :=
  match event.lookup "sequence_no" with
  | some (.int n) => some n
  | _ => none

/-- The key the events are sorted by. -/
def sequenceKey (event : Dict F) : ℤ := (sequenceNo event).getD 0

/-- `sorted(events, key=lambda e: e["sequence_no"])`. -/
def sortBySequence (events : List (Dict F)) : List (Dict F) :=
  events.mergeSort fun a b => sequenceKey a ≤ sequenceKey b

/-- The first number that was seen before. -/
def firstDuplicate : List ℤ → List ℤ → Option ℤ
  | _, [] => none
  | seen, s :: rest => if s ∈ seen then some s else firstDuplicate (s :: seen) rest

/-- The events' numbers increase. -/
def Increasing (events : List (Dict F)) : Prop :=
  (events.map sequenceKey).Pairwise (· < ·)

section Hash

variable (format : Json.FloatFormat F) (sha256 : List Char → String)

/-- `serialize_payload`. -/
def serializePayload (payload : Json F) : List Char := payload.dumps format

/-- `compute_evidence_hash`. -/
def computeEvidenceHash (events : List (Dict F)) : Except PyExc String :=
  if events.any fun event => (sequenceNo event).isNone then .error ⟨.exception, "'sequence_no'"⟩
  else
    let sortedEvents := sortBySequence events
    match firstDuplicate [] (sortedEvents.map sequenceKey) with
    | some seq => .error ⟨.valueError, "duplicate sequence_no: " ++ toString seq⟩
    | none => .ok (sha256 (serializePayload format (.arr (sortedEvents.map .obj))))

end Hash

theorem Increasing.eq_of_key {events : List (Dict F)} (h : Increasing events) {a b : Dict F}
    (ha : a ∈ events) (hb : b ∈ events) (hkey : sequenceKey a = sequenceKey b) : a = b := by
  have hnodup : (events.map sequenceKey).Nodup := h.imp ne_of_lt
  exact List.inj_on_of_nodup_map hnodup ha hb hkey

theorem pairwise_sortBySequence (events : List (Dict F)) :
    (sortBySequence events).Pairwise fun a b => sequenceKey a ≤ sequenceKey b := by
  have hpairwise : (sortBySequence events).Pairwise
      fun a b => decide (sequenceKey a ≤ sequenceKey b) = true :=
    List.pairwise_mergeSort
      (fun a b c hab hbc => by
        simp only [decide_eq_true_eq] at hab hbc ⊢
        exact hab.trans hbc)
      (fun a b => by simpa using le_total (sequenceKey a) (sequenceKey b)) events
  exact hpairwise.imp of_decide_eq_true

/-- **Sorting finds the increasing order.** -/
theorem sortBySequence_eq {events ordered : List (Dict F)} (hperm : events.Perm ordered)
    (h : Increasing ordered) : sortBySequence events = ordered := by
  have hordered : ordered.Pairwise fun a b => sequenceKey a ≤ sequenceKey b :=
    (List.pairwise_map.mp h).imp le_of_lt
  have hperm' : (sortBySequence events).Perm ordered := (List.mergeSort_perm _ _).trans hperm
  refine hperm'.eq_of_pairwise ?_ (pairwise_sortBySequence events) hordered
  intro a b ha hb hab hba
  exact h.eq_of_key (hperm'.mem_iff.mp ha) hb (le_antisymm hab hba)

theorem firstDuplicate_eq_none {l seen : List ℤ} :
    firstDuplicate seen l = none ↔ l.Nodup ∧ ∀ s ∈ l, s ∉ seen := by
  induction l generalizing seen with
  | nil => simp [firstDuplicate]
  | cons s l ih =>
    rw [firstDuplicate]
    split_ifs with h
    · simp [h]
    · rw [ih]
      simp only [List.nodup_cons, List.mem_cons, not_or, forall_eq_or_imp]
      constructor
      · rintro ⟨hnodup, hnew⟩
        exact ⟨⟨fun hs => (hnew s hs).1 rfl, hnodup⟩, h, fun a ha => (hnew a ha).2⟩
      · rintro ⟨⟨hs, hnodup⟩, -, hnew⟩
        exact ⟨hnodup, fun a ha => ⟨fun heq => hs (heq ▸ ha), hnew a ha⟩⟩

/-- **The hash of events** whose numbers increase in some order is the digest of that order. -/
theorem computeEvidenceHash_increasing (format : Json.FloatFormat F) (sha256 : List Char → String)
    {events ordered : List (Dict F)} (hperm : events.Perm ordered) (h : Increasing ordered)
    (hnumbered : ∀ event ∈ ordered, (sequenceNo event).isSome) :
    computeEvidenceHash format sha256 events =
      .ok (sha256 (serializePayload format (.arr (ordered.map .obj)))) := by
  have hany : (events.any fun event => (sequenceNo event).isNone) = false := by
    rw [List.any_eq_false]
    intro event hevent
    simpa using Option.isSome_iff_ne_none.mp (hnumbered event (hperm.mem_iff.mp hevent))
  have hnone : firstDuplicate [] (ordered.map sequenceKey) = none :=
    firstDuplicate_eq_none.mpr ⟨h.imp ne_of_lt, by simp⟩
  rw [computeEvidenceHash, hany]
  simp only [sortBySequence_eq hperm h, hnone]
  rfl

end Veridex.Runtime
