import Veridex.Execution.Runner

/-!
# The log of a lane

What a computation of the shell has awaited, with what it was answered, is its log. A question is
quiet (`IsQuiet`) when it neither asks for a price nor touches an order; `Idle log log'` says that a
log went on with quiet questions only, as a poll, a broadcast and a write of a record do.
-/

namespace Veridex.Execution

open Veridex.Lib Veridex.Py Veridex.Venues Dialogue

/-- What the shell has awaited, and what it was answered. -/
abbrev AwaitLog := List (Await × Except PyExc Answer)

/-- A question that a lane keeps no account of. -/
def Await.IsQuiet : Await → Prop
  | .getOrderStatus _ | .sleep | .broadcast _ | .appendExecutionRecord _ => True
  | _ => False

/-- A log that went on with quiet questions. -/
def Idle (log log' : AwaitLog) : Prop :=
  ∃ tail, log' = log ++ tail ∧ ∀ entry ∈ tail, entry.1.IsQuiet

theorem Idle.refl (log : AwaitLog) : Idle log log :=
  ⟨[], (List.append_nil log).symm, fun _ hmem => absurd hmem List.not_mem_nil⟩

theorem Idle.trans {log log' log'' : AwaitLog} (h : Idle log log') (h' : Idle log' log'') :
    Idle log log'' := by
  obtain ⟨tail, rfl, htail⟩ := h
  obtain ⟨tail', rfl, htail'⟩ := h'
  refine ⟨tail ++ tail', List.append_assoc .., fun entry hmem => ?_⟩
  rcases List.mem_append.mp hmem with hmem | hmem
  · exact htail entry hmem
  · exact htail' entry hmem

theorem idle_snoc (log : AwaitLog) {question : Await} (h : question.IsQuiet)
    (answer : Except PyExc Answer) : Idle log (log ++ [(question, answer)]) := by
  refine ⟨[(question, answer)], rfl, fun entry hmem => ?_⟩
  rw [List.mem_singleton.mp hmem]
  exact h

/-- What each quiet entry keeps, an idle log keeps. -/
theorem Idle.keeps {Kept : AwaitLog → Prop} {log log' : AwaitLog} (h : Idle log log')
    (hkept : Kept log) (keep : ∀ log question answer, question.IsQuiet → Kept log →
      Kept (log ++ [(question, answer)])) : Kept log' := by
  obtain ⟨tail, rfl, htail⟩ := h
  induction tail using List.reverseRecOn with
  | nil => rwa [List.append_nil]
  | append_singleton tail entry ih =>
    rw [← List.append_assoc]
    refine keep _ entry.1 entry.2 (htail entry (by simp)) (ih fun e he => htail e ?_)
    exact List.mem_append_left _ he

section Rules

variable {Safe : AwaitLog → Await → Prop}
  (hquiet : ∀ log (question : Await), question.IsQuiet → Safe log question)

include hquiet

theorem wp_getOrderStatus (venueOrderId : String) (log : AwaitLog) :
    Wp Safe (fun log' _ => Idle log log') log (getOrderStatus venueOrderId) := by
  refine wp_bind (wp_call (hquiet _ _ trivial) fun answer => wp_return ?_)
  exact @idle_snoc log (.getOrderStatus venueOrderId) trivial _

theorem wp_appendExecutionRecord (record : ExecutionRecord) (log : AwaitLog) :
    Wp Safe (fun log' _ => Idle log log') log (appendExecutionRecord record) := by
  refine wp_bind (wp_call (hquiet _ _ trivial) fun answer => wp_return ?_)
  exact @idle_snoc log (.appendExecutionRecord record) trivial _

theorem wp_pollFrom (venueOrderId : String) : ∀ (polls : ℕ) (last : OrderStatus) (log : AwaitLog),
    Wp Safe (fun log' _ => Idle log log') log (pollFrom venueOrderId polls last)
  | 0, last, log => wp_return (Idle.refl log)
  | polls + 1, last, log => by
    rw [pollFrom]
    split_ifs
    · exact wp_return (Idle.refl log)
    · refine wp_bind (wp_call (hquiet _ _ trivial) fun answer => ?_)
      have hsleep := @idle_snoc log (.sleep) trivial (.ok answer)
      refine wp_bind ((wp_getOrderStatus hquiet venueOrderId _).mono fun log₁ status hstatus => ?_)
      refine (wp_pollFrom venueOrderId polls status log₁).mono fun log₂ _ hpolls => ?_
      exact (hsleep.trans hstatus).trans hpolls

theorem wp_pollOrderTerminal (venueOrderId : String) (log : AwaitLog) :
    Wp Safe (fun log' _ => Idle log log') log (pollOrderTerminal venueOrderId) := by
  refine wp_bind ((wp_getOrderStatus hquiet venueOrderId _).mono fun log₁ status hstatus => ?_)
  exact (wp_pollFrom hquiet venueOrderId 20 status log₁).mono fun log₂ _ hpolls =>
    hstatus.trans hpolls

theorem wp_emit {lane : Lane} {s : LaneState} {log : AwaitLog}
    (event : ℤ → Competition.CompetitionEvent) :
    Wp Safe (fun log' s' => Idle log log' ∧ s'.ordersThisRun = s.ordersThisRun ∧
      s'.guards = s.guards) log (lane.emit s event) := by
  unfold Lane.emit
  split_ifs
  · refine wp_bind (wp_call (hquiet _ _ trivial) fun answer => wp_return ?_)
    exact ⟨@idle_snoc log (.broadcast (event s.seq)) trivial _, rfl, rfl⟩
  · exact wp_return ⟨Idle.refl log, rfl, rfl⟩

end Rules

end Veridex.Execution
