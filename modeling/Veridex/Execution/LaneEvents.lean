import Veridex.Competition.LogShape
import Veridex.Execution.AwaitLog

/-!
# The events of a lane (`execution/runner.py`)

Whatever is answered, a lane's events are numbered one after the other from its base on, and each is
derived.
-/

namespace Veridex.Execution

open Veridex.Py Veridex.Lib Veridex.Runtime Veridex.Policy Veridex.Strategies Veridex.Venues Dialogue
open Veridex.Competition (CompetitionEvent IsDerived derivedEvent_isDerived)

variable {format : Json.FloatFormat PyFloat} {sha256 : List Char → String}
  {policyHash : PolicyEnvelope → String}

/-- Events that are numbered from a number on, and derived. -/
structure Block (baseSeq : ℤ) (events : List CompetitionEvent) : Prop where
  numbered : events.map (·.seq) = (List.range events.length).map fun i : ℕ => baseSeq + i
  derived : ∀ event ∈ events, IsDerived event

theorem Block.snoc {baseSeq : ℤ} {events : List CompetitionEvent} {event : CompetitionEvent}
    (h : Block baseSeq events) (hseq : event.seq = baseSeq + events.length)
    (hderived : IsDerived event) : Block baseSeq (events ++ [event]) where
  numbered := by
    rw [List.map_append, h.numbered, List.length_append, List.length_singleton, List.range_succ,
      List.map_append, List.map_singleton, List.map_singleton, hseq]
  derived := by
    intro event' hevent
    rcases List.mem_append.mp hevent with hevent | hevent
    · exact h.derived event' hevent
    · rwa [List.mem_singleton.mp hevent]

theorem Block.cons {baseSeq : ℤ} {events : List CompetitionEvent} {event : CompetitionEvent}
    (hseq : event.seq = baseSeq) (hderived : IsDerived event) (h : Block (baseSeq + 1) events) :
    Block baseSeq (event :: events) where
  numbered := by
    rw [List.map_cons, h.numbered, List.length_cons, List.range_succ_eq_map, List.map_cons,
      List.map_map, hseq, Nat.cast_zero, add_zero]
    refine congrArg _ (List.map_congr_left fun i _ => ?_)
    simp only [Function.comp_apply, Nat.succ_eq_add_one, Nat.cast_add, Nat.cast_one]
    ring
  derived := by
    intro event' hevent
    rcases List.mem_cons.mp hevent with rfl | hevent
    · exact hderived
    · exact h.derived event' hevent

/-- What a lane has made so far is a block, and the next number follows it. -/
structure LaneState.Ordered (baseSeq : ℤ) (s : LaneState) : Prop where
  block : Block baseSeq s.events
  next : s.seq = baseSeq + s.events.length

section Lane

variable {lane : Lane} {s : LaneState} {log : AwaitLog} {baseSeq : ℤ} {α : Type}

/-- Nothing is asked of the questions. -/
def Unasked (_ : AwaitLog) (_ : Await) : Prop := True

/-- A part that leaves the events alone. -/
theorem wp_aside {d : Shell α} {Post : AwaitLog → α → Prop} (h : ∀ log a, Post log a) :
    Wp Unasked Post log d := wp_any (fun _ _ => trivial) h

theorem wp_emit_block (h : s.Ordered baseSeq) {event : ℤ → CompetitionEvent}
    (hevent : ∀ seq, IsDerived (event seq) ∧ (event seq).seq = seq) :
    Wp Unasked (fun _ s => s.Ordered baseSeq) log (lane.emit s event) := by
  have hnext : ({ s with events := s.events ++ [event s.seq], seq := s.seq + 1 } : LaneState).Ordered
      baseSeq := by
    refine ⟨h.block.snoc ((hevent _).2.trans h.next) (hevent _).1, ?_⟩
    simp only [List.length_append, List.length_singleton, h.next]
    omega
  unfold Lane.emit
  split_ifs
  · exact wp_bind (wp_aside fun _ _ => wp_return hnext)
  · exact wp_return hnext

theorem wp_submit_block (h : s.Ordered baseSeq) (proposal : Proposal) (quote : Quote)
    (record : ExecutionRecord) : Wp Unasked (fun _ out => out.1.Ordered baseSeq) log
      (lane.submit format sha256 s proposal quote record) := by
  unfold Lane.submit
  refine wp_bind (wp_aside fun _ record => ?_)
  refine wp_bind (wp_aside fun _ receipt => ?_)
  refine wp_bind (wp_aside fun _ record => ?_)
  refine wp_bind (Wp.mono (wp_emit_block (by exact ⟨h.block, h.next⟩)
    fun seq => ⟨derivedEvent_isDerived, rfl⟩) fun _ s hs => ?_)
  refine wp_bind ((wp_emit_block hs fun seq => ⟨derivedEvent_isDerived, rfl⟩).mono fun _ s hs => ?_)
  exact wp_return hs

theorem wp_settle_block (h : s.Ordered baseSeq) (proposal : Proposal) (quote : Quote)
    (post : PolicyResult) (record : ExecutionRecord) :
    Wp Unasked (fun _ out => out.1.Ordered baseSeq) log
      (lane.settle format sha256 s proposal quote post record) := by
  unfold Lane.settle
  dsimp only
  split_ifs
  · exact wp_bind (wp_aside fun _ _ => wp_return h)
  · exact wp_bind (wp_aside fun _ _ => wp_return h)
  · exact wp_submit_block h proposal quote record
  · exact wp_return h

theorem wp_quoted_block (h : s.Ordered baseSeq) (proposal : Proposal) (record : ExecutionRecord) :
    Wp Unasked (fun _ s => s.Ordered baseSeq) log
      (lane.quoted format sha256 policyHash s proposal record) := by
  unfold Lane.quoted
  refine wp_bind (wp_aside fun _ quote => ?_)
  refine wp_bind (wp_aside fun _ slippage => ?_)
  refine wp_bind (wp_aside fun _ execEdge => ?_)
  refine wp_bind (wp_aside fun _ gap => ?_)
  refine wp_bind ((wp_emit_block h fun seq => ⟨derivedEvent_isDerived, rfl⟩).mono fun _ s hs => ?_)
  refine wp_bind ((wp_settle_block hs proposal quote _ _).mono fun _ out hout => ?_)
  exact wp_bind (wp_aside fun _ _ => wp_return hout)

/-- One proposal keeps the block. -/
theorem wp_step_block (h : s.Ordered baseSeq) (proposal : Proposal) :
    Wp Unasked (fun _ s => s.Ordered baseSeq) log
      (lane.step format sha256 policyHash s proposal) := by
  unfold Lane.step
  refine wp_bind (wp_aside fun _ record => ?_)
  split_ifs
  · refine wp_bind ((wp_emit_block h fun seq => ⟨derivedEvent_isDerived, rfl⟩).mono fun _ s hs => ?_)
    exact wp_bind (wp_aside fun _ _ => wp_bind (wp_aside fun _ _ => wp_return hs))
  · exact wp_quoted_block h proposal record

/-- **A lane's events** are a block from its base on. -/
theorem runExecutionLane_block :
    Wp Unasked (fun _ events => Block lane.baseSeq events) []
      (lane.runExecutionLane format sha256 policyHash) := by
  unfold Lane.runExecutionLane
  refine wp_bind (wp_aside fun _ proposals => ?_)
  refine wp_bind ((wp_foldlM (fun _ s _ => s.Ordered lane.baseSeq)
    (fun _ s proposal _ hs => wp_step_block hs proposal) (fun _ _ hs => hs) ?_).mono
    fun _ s hs => wp_return hs.block)
  exact ⟨⟨rfl, fun _ h => absurd h List.not_mem_nil⟩, by simp [Lane.start]⟩

end Lane

end Veridex.Execution
