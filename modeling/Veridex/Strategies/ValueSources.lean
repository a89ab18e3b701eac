import Veridex.Lib.Keyed
import Veridex.Strategies.Value

/-!
# What a proposal is correlated to

The index holds the number of a decision under its agent and tick. Where the events' numbers are
their own, no number stands under two keys, so two proposals share a number exactly where one agent
has two proposals of one tick sequence number.

Result: `sources_nodup`.
-/

namespace Veridex.Strategies

open Veridex.Py Veridex.Lib Veridex.Runtime Veridex.Scoring

variable {format : Json.FloatFormat PyFloat}

/-- A payload that is sealed is read back. -/
theorem loadsOrEmpty_payloadText (payload : Decoded) :
    loadsOrEmpty format (some (payloadText format payload)) = .ok payload.sorted := by
  have hne : (payloadText format payload).isEmpty = false := by
    by_contra h
    have hempty : payloadText format payload = "" := by simpa using h
    have hread := loadsText_payloadText format payload
    rw [hempty] at hread
    exact nomatch hread
  simp only [loadsOrEmpty, hne]
  exact loadsText_payloadText format payload

/-- An index whose numbers are those of some events, each under one key. -/
structure SeqIndex.Of (s : SeqIndex) (events : List RunEvent) : Prop where
  once : (s.index.map Prod.snd).Nodup
  sources : ∀ n ∈ s.index.map Prod.snd, n ∈ events.map (·.sequenceNo)

theorem SeqIndex.Of.skip {s : SeqIndex} {events : List RunEvent} (h : s.Of events) (event : RunEvent) :
    s.Of (events ++ [event]) := by
  refine ⟨h.once, fun n hn => ?_⟩
  rw [List.map_append]
  exact List.mem_append_left _ (h.sources n hn)

/-- An event puts at most its own number into the index. -/
theorem seqIndex_add {s s' : SeqIndex} {event : RunEvent} (h : s.add format event = .ok s') :
    s'.index = s.index ∨ ∃ key, s'.index = (key, event.sequenceNo) :: s.index := by
  unfold SeqIndex.add at h
  split at h
  · obtain ⟨snapshot, -, h⟩ := bind_eq_ok.mp h
    obtain ⟨tickSeq, -, h⟩ := bind_eq_ok.mp h
    split at h
    · obtain rfl := Except.ok.inj h
      exact .inl rfl
    · obtain ⟨n, -, h⟩ := bind_eq_ok.mp h
      obtain rfl := Except.ok.inj h
      exact .inl rfl
  · obtain ⟨payload, -, h⟩ := bind_eq_ok.mp h
    obtain ⟨agentId, -, h⟩ := bind_eq_ok.mp h
    split at h
    · obtain rfl := Except.ok.inj h
      exact .inr ⟨_, rfl⟩
    · obtain rfl := Except.ok.inj h
      exact .inl rfl
  · obtain rfl := Except.ok.inj h
    exact .inl rfl

theorem SeqIndex.Of.add {s s' : SeqIndex} {events : List RunEvent} {event : RunEvent}
    (h : s.Of events) (hfresh : event.sequenceNo ∉ events.map (·.sequenceNo))
    (hadd : s.add format event = .ok s') : s'.Of (events ++ [event]) := by
  rcases seqIndex_add hadd with hindex | ⟨key, hindex⟩
  · have hskip := h.skip event
    exact ⟨hindex ▸ hskip.once, hindex ▸ hskip.sources⟩
  · refine ⟨?_, ?_⟩
    · rw [hindex, List.map_cons, List.nodup_cons]
      exact ⟨fun hmem => hfresh (h.sources _ hmem), h.once⟩
    · intro n hn
      rw [hindex, List.map_cons] at hn
      rcases List.mem_cons.mp hn with rfl | hn
      · simp
      · exact (h.skip event).sources n hn

/-- The walk over events that each have a number of their own. -/
theorem seqIndex_walk : ∀ {events before : List RunEvent} {s s' : SeqIndex}, s.Of before →
    ((before ++ events).map (·.sequenceNo)).Nodup →
    events.foldlM (SeqIndex.add format) s = .ok s' → s'.Of (before ++ events) := by
  intro events
  induction events with
  | nil =>
    intro before s s' h _ hwalk
    obtain rfl := Except.ok.inj hwalk
    rwa [List.append_nil]
  | cons event events ih =>
    intro before s s' h hnodup hwalk
    rw [List.foldlM_cons] at hwalk
    obtain ⟨middle, hadd, hrest⟩ := bind_eq_ok.mp hwalk
    have hsplit : before ++ event :: events = (before ++ [event]) ++ events := by simp
    have hfresh : event.sequenceNo ∉ before.map (·.sequenceNo) := by
      intro hmem
      rw [List.map_append, List.map_cons] at hnodup
      exact List.disjoint_of_nodup_append hnodup hmem List.mem_cons_self
    rw [hsplit] at hnodup ⊢
    exact ih (h.add hfresh hadd) hnodup hrest

/-- **The index** of a run whose events have a number each. -/
theorem decisionSeqIndex_nodup {runEvents : List RunEvent} {index : List ((String × ℤ) × ℤ)}
    (hnodup : (runEvents.map (·.sequenceNo)).Nodup)
    (h : decisionSeqIndex format runEvents = .ok index) : (index.map Prod.snd).Nodup := by
  obtain ⟨s, hwalk, h⟩ := bind_eq_ok.mp h
  obtain rfl := Except.ok.inj h
  have hperm := List.mergeSort_perm runEvents fun a b => a.sequenceNo ≤ b.sequenceNo
  have hstart : SeqIndex.Of {} [] := ⟨List.nodup_nil, fun n hn => absurd hn List.not_mem_nil⟩
  refine (seqIndex_walk hstart ?_ hwalk).once
  rw [List.nil_append]
  exact (hperm.map _).nodup_iff.mpr hnodup

/-- A number stands under one key. -/
theorem lookup_inj {index : List ((String × ℤ) × ℤ)} {key key' : String × ℤ} {n : ℤ}
    (hnodup : (index.map Prod.snd).Nodup) (h : index.lookup key = some n)
    (h' : index.lookup key' = some n) : key = key' := by
  have hmem : ∀ {key}, index.lookup key = some n → (key, n) ∈ index := by
    intro key h
    obtain ⟨before, after, rfl, -⟩ := List.lookup_eq_some_iff.mp h
    simp
  exact congrArg Prod.fst (List.inj_on_of_nodup_map hnodup (hmem h) (hmem h') rfl)

/-- A proposal's number is the index's. -/
theorem rowProposal_source {seqIndex : List ((String × ℤ) × ℤ)} {entryIndex : List (ℤ × Decoded)}
    {minEdgeBps : ℤ} {row : Params} {p : Proposal}
    (h : rowProposal seqIndex entryIndex minEdgeBps row = .ok (some p)) :
    seqIndex.lookup (p.agentId, p.tickSeq) = some p.sourceSequenceNo := by
  unfold rowProposal at h
  split at h
  · simp at h
  · split at h
    · simp at h
    · split at h
      · simp at h
      · obtain ⟨params, -, h⟩ := bind_eq_ok.mp h
        obtain ⟨marketKey, -, h⟩ := bind_eq_ok.mp h
        obtain ⟨side, -, h⟩ := bind_eq_ok.mp h
        split at h
        · simp [pure, Except.pure] at h
        · obtain ⟨agentId, -, h⟩ := bind_eq_ok.mp h
          obtain ⟨tick, -, h⟩ := bind_eq_ok.mp h
          split at h
          · split at h
            · simp [pure, Except.pure] at h
            · rename_i hlookup
              obtain ⟨kelly, -, h⟩ := bind_eq_ok.mp h
              obtain ⟨marketText, -, h⟩ := bind_eq_ok.mp h
              obtain ⟨sideText, -, h⟩ := bind_eq_ok.mp h
              obtain ⟨entry, -, h⟩ := bind_eq_ok.mp h
              obtain rfl := Option.some.inj (Except.ok.inj h)
              exact hlookup
          · simp [pure, Except.pure] at h

/-- **The numbers of a run's proposals** are their own where each agent has one proposal of a tick
sequence number. -/
theorem sources_nodup {result : RunResult} {minEdgeBps : ℤ} {proposals : List Proposal}
    (hnodup : (result.runEvents.map (·.sequenceNo)).Nodup)
    (hproposals : valueProposals format result minEdgeBps = .ok proposals)
    (honce : (proposals.map fun p => (p.agentId, p.tickSeq)).Nodup) :
    (proposals.map (·.sourceSequenceNo)).Nodup := by
  obtain ⟨seqIndex, hindex, h⟩ := bind_eq_ok.mp hproposals
  obtain ⟨entryIndex, -, h⟩ := bind_eq_ok.mp h
  obtain ⟨found, hfound, h⟩ := bind_eq_ok.mp h
  obtain rfl := Except.ok.inj h
  have hsource : ∀ p ∈ (found.filterMap id).mergeSort fun a b => a.sourceSequenceNo ≤ b.sourceSequenceNo,
      seqIndex.lookup (p.agentId, p.tickSeq) = some p.sourceSequenceNo := by
    intro p hp
    rw [List.mem_mergeSort] at hp
    obtain ⟨q, hq, rfl⟩ := List.mem_filterMap.mp hp
    obtain ⟨row, -, hrow⟩ := exists_of_mem_mapM hfound hq
    exact rowProposal_source hrow
  refine List.Nodup.map_on ?_ (List.Nodup.of_map _ honce)
  intro p hp p' hp' heq
  refine List.inj_on_of_nodup_map honce hp hp' (lookup_inj (decisionSeqIndex_nodup hnodup hindex) ?_
    (hsource p' hp'))
  rw [hsource p hp, heq]

end Veridex.Strategies
