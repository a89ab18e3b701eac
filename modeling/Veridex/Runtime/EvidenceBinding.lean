import Veridex.Py.Decoded
import Veridex.Runtime.Evidence

/-!
# What an evidence hash binds

`evidence_hash_binds`: the hash of events is raised exactly where two of them share a number, and two
hashes are equal exactly where the events are the same, in any order, each up to the order of its keys.
The digest of a text is a parameter, taken to be injective.
-/

namespace Veridex.Runtime

open Veridex.Py Veridex.Lib

variable {F : Type} {format : Json.FloatFormat F} {sha256 : List Char → String}

/-- Every event has a number. -/
def Numbered (events : List (Dict F)) : Prop := ∀ event ∈ events, (sequenceNo event).isSome

/-- No two events share a number. -/
def Apart (events : List (Dict F)) : Prop := (events.map sequenceKey).Nodup

/-- The same events in some order, each up to the order of its keys. -/
def SameEvents (events events' : List (Dict F)) : Prop :=
  (events.map Json.sortedFields).Perm (events'.map Json.sortedFields)

theorem sequenceKey_sortedFields (event : Dict F) :
    sequenceKey (Json.sortedFields event) = sequenceKey event := by
  rw [sequenceKey, sequenceKey, sequenceNo, sequenceNo, Json.lookup_sortedFields]
  cases event.lookup "sequence_no" with
  | none => rfl
  | some value => cases value <;> rfl

/-- Events that are apart have one order in which their numbers increase. -/
theorem exists_increasing {events : List (Dict F)} (h : Apart events) :
    events.Perm (sortBySequence events) ∧ Increasing (sortBySequence events) := by
  have hperm : (sortBySequence events).Perm events := List.mergeSort_perm _ _
  refine ⟨hperm.symm, ?_⟩
  have hnodup : ((sortBySequence events).map sequenceKey).Nodup :=
    (hperm.map sequenceKey).nodup_iff.mpr h
  exact (List.pairwise_map.mpr (pairwise_sortBySequence events)).imp₂ (fun _ _ hle hne => lt_of_le_of_ne hle hne) hnodup

/-- **The hash** of events that are apart. -/
theorem computeEvidenceHash_apart (format : Json.FloatFormat F) (sha256 : List Char → String)
    {events : List (Dict F)} (hnumbered : Numbered events) (h : Apart events) :
    computeEvidenceHash format sha256 events =
      .ok (sha256 (serializePayload format (.arr ((sortBySequence events).map .obj)))) := by
  obtain ⟨hperm, hincreasing⟩ := exists_increasing h
  exact computeEvidenceHash_increasing format sha256 hperm hincreasing
    fun event hevent => hnumbered event (hperm.mem_iff.mpr hevent)

/-- Two events that share a number are refused. -/
theorem computeEvidenceHash_shared (format : Json.FloatFormat F) (sha256 : List Char → String)
    {events : List (Dict F)} (hnumbered : Numbered events) (h : ¬ Apart events) :
    ∃ msg, computeEvidenceHash format sha256 events = .error ⟨.valueError, msg⟩ := by
  have hany : (events.any fun event => (sequenceNo event).isNone) = false := by
    rw [List.any_eq_false]
    intro event hevent
    simpa using Option.isSome_iff_ne_none.mp (hnumbered event hevent)
  cases hfirst : firstDuplicate [] ((sortBySequence events).map sequenceKey) with
  | none =>
    have hnodup := (firstDuplicate_eq_none.mp hfirst).1
    have hperm : (sortBySequence events).Perm events := List.mergeSort_perm _ _
    exact absurd ((hperm.map sequenceKey).nodup_iff.mp hnodup) h
  | some seq =>
    refine ⟨"duplicate sequence_no: " ++ toString seq, ?_⟩
    rw [computeEvidenceHash, hany]
    simp only [hfirst]
    rfl

/-- The events in order, where their numbers are apart, are told by what they are up to order. -/
theorem sortBySequence_of_same {events events' : List (Dict F)} (h : Apart events)
    (h' : Apart events') (hsame : SameEvents events events') :
    (sortBySequence events).map Json.sortedFields =
      (sortBySequence events').map Json.sortedFields := by
  obtain ⟨hperm, hincreasing⟩ := exists_increasing h
  obtain ⟨hperm', hincreasing'⟩ := exists_increasing h'
  have hbetween : ((sortBySequence events).map Json.sortedFields).Perm
      ((sortBySequence events').map Json.sortedFields) :=
    (hperm.symm.map _).trans (hsame.trans (hperm'.map _))
  have hlt : ∀ {l : List (Dict F)}, Increasing l →
      (l.map Json.sortedFields).Pairwise fun a b => sequenceKey a < sequenceKey b := by
    intro l hl
    refine List.pairwise_map.mpr ((List.pairwise_map.mp hl).imp fun {a b} hab => ?_)
    rwa [sequenceKey_sortedFields, sequenceKey_sortedFields]
  exact hbetween.eq_of_pairwise (fun a b _ _ hab hba => absurd hba hab.asymm)
    (hlt hincreasing) (hlt hincreasing')

/-- Equal texts of events are of equal events. -/
theorem sortedFields_of_dumps {events events' : List (Dict F)}
    (h : serializePayload format (.arr (events.map .obj)) =
      serializePayload format (.arr (events'.map .obj))) :
    events.map Json.sortedFields = events'.map Json.sortedFields := by
  have hsorted := (Json.dumps_inj format).mp h
  rw [Json.sorted, Json.sorted, Json.sortedItems_eq_map, Json.sortedItems_eq_map, List.map_map,
    List.map_map] at hsorted
  have hobj : Function.Injective (Json.obj : Dict F → Json F) := fun _ _ => Json.obj.inj
  refine List.map_injective_iff.mpr hobj ?_
  rw [List.map_map, List.map_map]
  exact Json.arr.inj hsorted

/-- The text of events is told by them up to the order of their keys. -/
theorem dumps_of_sortedFields {events events' : List (Dict F)}
    (h : events.map Json.sortedFields = events'.map Json.sortedFields) :
    serializePayload format (.arr (events.map .obj)) =
      serializePayload format (.arr (events'.map .obj)) := by
  refine (Json.dumps_inj format).mpr ?_
  have hobj := congrArg (List.map Json.obj) h
  rw [List.map_map, List.map_map] at hobj
  rw [Json.sorted, Json.sorted, Json.sortedItems_eq_map, Json.sortedItems_eq_map, List.map_map,
    List.map_map]
  exact congrArg Json.arr hobj

/-- **An evidence hash binds its events.** It is raised exactly where two of them share a number, and
two hashes are equal exactly where the events are the same. -/
theorem evidence_hash_binds (format : Json.FloatFormat F) (hinj : Function.Injective sha256)
    {events events' : List (Dict F)} (hnumbered : Numbered events) (hnumbered' : Numbered events') :
    ((∃ msg, computeEvidenceHash format sha256 events = .error ⟨.valueError, msg⟩) ↔
        ¬ Apart events) ∧
      (Apart events → Apart events' →
        ∃ hash hash', computeEvidenceHash format sha256 events = .ok hash ∧
          computeEvidenceHash format sha256 events' = .ok hash' ∧
            (hash = hash' ↔ SameEvents events events')) := by
  constructor
  · constructor
    · rintro ⟨msg, hraise⟩ hapart
      rw [computeEvidenceHash_apart format sha256 hnumbered hapart] at hraise
      exact nomatch hraise
    · exact computeEvidenceHash_shared format sha256 hnumbered
  · intro hapart hapart'
    refine ⟨_, _, computeEvidenceHash_apart format sha256 hnumbered hapart,
      computeEvidenceHash_apart format sha256 hnumbered' hapart', ?_⟩
    constructor
    · intro hhash
      have hsame := sortedFields_of_dumps (hinj hhash)
      exact ((exists_increasing hapart).1.map _).trans
        ((List.Perm.of_eq hsame).trans ((exists_increasing hapart').1.symm.map _))
    · intro hsame
      exact congrArg sha256 (dumps_of_sortedFields (sortBySequence_of_same hapart hapart' hsame))

/-- An event of the feed. -/
def tickEvent : Dict PyFloat := [("sequence_no", .int 0), ("kind", .str "tick")]

/-- The same event, its keys in the other order. -/
def reorderedEvent : Dict PyFloat := [("kind", .str "tick"), ("sequence_no", .int 0)]

/-- The two have one hash. -/
theorem evidence_hash_binds_reordered : ∃ hash,
    computeEvidenceHash ratioFormat String.ofList [tickEvent] = .ok hash ∧
      computeEvidenceHash ratioFormat String.ofList [reorderedEvent] = .ok hash := by
  have hnumbered : Numbered [tickEvent] := by
    intro event hevent
    rw [List.mem_singleton.mp hevent]
    rfl
  have hnumbered' : Numbered [reorderedEvent] := by
    intro event hevent
    rw [List.mem_singleton.mp hevent]
    rfl
  obtain ⟨hash, hash', hhash, hhash', hiff⟩ := (evidence_hash_binds ratioFormat
    (fun _ _ => String.ofList_injective) hnumbered hnumbered').2
    (List.nodup_singleton _) (List.nodup_singleton _)
  have hsame : SameEvents [tickEvent] [reorderedEvent] := by
    refine List.Perm.of_eq (congrArg (fun event => [event]) ?_)
    simp only [tickEvent, reorderedEvent, Json.sortedFields, Json.insertField, Json.sorted]
    have hne : "kind" ≠ "sequence_no" := by decide
    rcases lt_or_gt_of_ne hne with hlt | hlt
    · rw [if_neg hlt.not_gt, if_neg hne.symm, if_pos hlt]
    · rw [if_pos hlt, if_neg hlt.not_gt, if_neg hne]
  rw [← hiff.mpr hsame] at hhash'
  exact ⟨hash, hhash, hhash'⟩

end Veridex.Runtime
