import Veridex.DustExecution.RunGates
import Veridex.MmStrategy.Bridge
import Veridex.MmStrategy.Runs

/-!
# Runs of the execution bridge

`planLog` is what the facade was asked and answered in a run, read off its labels. `WorkerAt` ties
the worker to the plan after that log (`executePlan_standing`), and `HostAt` ties the host, the stop
signal and the sink to the worker's outcome; every step keeps both (`BridgeInv.step`).

Results: `orderly_of_run` (the order of the submissions), `bridge_accounts_iff`.
-/

namespace Veridex.MmStrategy

open Veridex.Py Veridex.Lib
open DustExecution (MMExecutionToolRequest MMExecutionToolResult)

variable {timeoutS : PyFloat} {inputs : PlanInputs} {decision : StrategyDecision} {stop : Bool}
  {events : List BridgeEvent} {bridge nextBridge : Bridge} {event : BridgeEvent}

/-! ## Reading the labels -/

/-- A leg that was answered. -/
def BridgeEvent.entry : BridgeEvent → Option (MMExecutionToolRequest × Except BridgeExc
    MMExecutionToolResult)
  | .reply request how => some (request, how.answer request)
  | _ => none

/-- A leg that was submitted. -/
def BridgeEvent.submission : BridgeEvent → Option MMExecutionToolRequest
  | .submit request => some request
  | _ => none

/-- The legs that were answered. -/
def planLog (events : List BridgeEvent) : PlanLog BridgeExc := events.filterMap (·.entry)

/-- The legs that were submitted. -/
def submissions (events : List BridgeEvent) : List MMExecutionToolRequest :=
  events.filterMap (·.submission)

@[simp] theorem planLog_concat (events : List BridgeEvent) (event : BridgeEvent) :
    planLog (events ++ [event]) = planLog events ++ event.entry.toList := by
  cases h : event.entry <;> simp [planLog, h]

@[simp] theorem submissions_concat (events : List BridgeEvent) (event : BridgeEvent) :
    submissions (events ++ [event]) = submissions events ++ event.submission.toList := by
  cases h : event.submission <;> simp [submissions, h]

theorem mem_planLog {entry : MMExecutionToolRequest × Except BridgeExc MMExecutionToolResult} :
    entry ∈ planLog events ↔
      ∃ request reply, .reply request reply ∈ events ∧ entry = (request, reply.answer request) := by
  simp only [planLog, List.mem_filterMap]
  constructor
  · rintro ⟨event, hmem, hentry⟩
    cases event with
    | reply request reply => exact ⟨request, reply, hmem, (Option.some.inj hentry).symm⟩
    | start | stopSet | cancel | check | submit | finish | resume => cases hentry
  · rintro ⟨request, reply, hmem, rfl⟩
    exact ⟨_, hmem, rfl⟩

/-! ## The worker -/

/-- How a worker ends after a log. -/
inductive EndsAs (log : PlanLog BridgeExc) : Except BridgeExc PlanExecutionResult → Prop
  | returned (plan : PlanExecutionResult) (answered : ∀ entry ∈ log, ∃ result, entry.2 = .ok result)
      (awaiting : plan.awaitingReconciliation = true ↔ ∃ entry ∈ log, InDoubt entry.2) :
      EndsAs log (.ok plan)
  | refused (e : PyExc) (continued : ∀ entry ∈ log, GoesOn entry.2)
      (isException : e.isException = true) : EndsAs log (.error (.raised e))
  | stopped (request : MMExecutionToolRequest) (continued : ∀ entry ∈ log, GoesOn entry.2) :
      EndsAs log (.error (.abortedByKill request))
  | escaped (init : PlanLog BridgeExc) (request : MMExecutionToolRequest) (e : BridgeExc)
      (last : log = init ++ [(request, .error e)]) (continued : ∀ entry ∈ init, GoesOn entry.2) :
      EndsAs log (.error e)

theorem endsAs_of_heard {log : PlanLog BridgeExc} {outcome : Except BridgeExc PlanExecutionResult}
    (h : Dialogue.Heard (executePlan .raised inputs decision) log (.done outcome)) :
    EndsAs log outcome := by
  generalize hd : Dialogue.done outcome = d at h
  cases executePlan_standing h with
  | asks => cases hd
  | returned plan answered awaiting frozen =>
    cases hd
    exact .returned plan answered awaiting
  | refused e continued isException =>
    cases hd
    exact .refused e continued isException
  | escaped init request e last continued =>
    cases hd
    exact .escaped init request e last continued

/-- A plan that is told of the stop ends there. -/
theorem stopped_of_heard {log : PlanLog BridgeExc} {request : MMExecutionToolRequest}
    {next : Except BridgeExc MMExecutionToolResult → BridgedPlan}
    (h : Dialogue.Heard (executePlan .raised inputs decision) log (.ask request next)) :
    (∀ entry ∈ log, GoesOn entry.2) ∧
      next (.error (.abortedByKill request)) = .done (.error (.abortedByKill request)) := by
  have hcontinued : ∀ entry ∈ log, GoesOn entry.2 := by
    cases executePlan_standing h with
    | asks _ _ continued _ => exact continued
  refine ⟨hcontinued, ?_⟩
  have hlast : ¬ ∀ entry ∈ log ++ [(request, .error (.abortedByKill request))],
      GoesOn entry.2 := fun hall => hall _ (List.mem_append_right log (List.mem_singleton_self _))
  have hstanding := executePlan_standing (h.snoc (.error (.abortedByKill request)))
  generalize next (.error (.abortedByKill request)) = d at hstanding
  cases hstanding with
  | asks _ _ continued _ => exact absurd continued hlast
  | returned _ answered _ _ =>
    obtain ⟨result, hresult⟩ := answered (request, .error (.abortedByKill request)) (by simp)
    cases hresult
  | refused _ continued _ => exact absurd continued hlast
  | escaped init other e last _ =>
    obtain ⟨-, hsame⟩ := List.append_inj' last rfl
    cases hsame
    rfl

/-- The clear check of a leg: no stop before it, and only the session and the host since. -/
def ClearCheck (stop : Bool) (events : List BridgeEvent) (request : MMExecutionToolRequest) : Prop :=
  stop = false ∧ ∃ before since, events = before ++ .check request :: since ∧
    (∀ event ∈ since, event = .stopSet ∨ event = .cancel) ∧
    .stopSet ∉ before ∧ .cancel ∉ before

/-- The worker, after a run with these labels. -/
inductive WorkerAt (inputs : PlanInputs) (decision : StrategyDecision) (stop : Bool)
    (events : List BridgeEvent) : Worker → Prop
  | running (plan : BridgedPlan)
      (heard : Dialogue.Heard (executePlan .raised inputs decision) (planLog events) plan)
      (inOrder : submissions events = submitted (planLog events)) :
      WorkerAt inputs decision stop events (.running plan)
  | stopped (request : MMExecutionToolRequest)
      (continued : ∀ entry ∈ planLog events, GoesOn entry.2) :
      WorkerAt inputs decision stop events (.running (.done (.error (.abortedByKill request))))
  | cleared (request : MMExecutionToolRequest)
      (next : Except BridgeExc MMExecutionToolResult → BridgedPlan)
      (heard : Dialogue.Heard (executePlan .raised inputs decision) (planLog events)
        (.ask request next))
      (inOrder : submissions events = submitted (planLog events))
      (check : ClearCheck stop events request) :
      WorkerAt inputs decision stop events (.cleared request next)
  | waiting (request : MMExecutionToolRequest)
      (next : Except BridgeExc MMExecutionToolResult → BridgedPlan)
      (heard : Dialogue.Heard (executePlan .raised inputs decision) (planLog events)
        (.ask request next))
      (inOrder : submissions events = submitted (planLog events) ++ [request]) :
      WorkerAt inputs decision stop events (.waiting request next)
  | ended (outcome : Except BridgeExc PlanExecutionResult)
      (ends : EndsAs (planLog events) outcome) :
      WorkerAt inputs decision stop events (.ended outcome)

/-- A step of the session or the host says nothing new of the worker. -/
theorem WorkerAt.extend {worker : Worker} (h : WorkerAt inputs decision stop events worker)
    (hevent : event = .start ∨ event = .stopSet ∨ event = .cancel ∨ event = .resume)
    (hlate : (∃ request next, worker = .cleared request next) →
      event = .stopSet ∨ event = .cancel) :
    WorkerAt inputs decision stop (events ++ [event]) worker := by
  have hlog : planLog (events ++ [event]) = planLog events := by
    rcases hevent with rfl | rfl | rfl | rfl <;> simp [BridgeEvent.entry]
  have hsubmissions : submissions (events ++ [event]) = submissions events := by
    rcases hevent with rfl | rfl | rfl | rfl <;> simp [BridgeEvent.submission]
  cases h with
  | running plan heard inOrder =>
    exact .running plan (hlog ▸ heard) (by rw [hsubmissions, hlog, inOrder])
  | stopped request continued => exact .stopped request (hlog ▸ continued)
  | cleared request next heard inOrder check =>
    obtain ⟨hstop, before, since, rfl, hsince, hbefore⟩ := check
    refine .cleared request next (hlog ▸ heard) (by rw [hsubmissions, hlog, inOrder])
      ⟨hstop, before, since ++ [event], by simp, ?_, hbefore⟩
    intro other hother
    rcases List.mem_append.mp hother with hother | hother
    · exact hsince other hother
    · rw [List.mem_singleton.mp hother]
      exact hlate ⟨request, next, rfl⟩
  | waiting request next heard inOrder =>
    exact .waiting request next (hlog ▸ heard) (by rw [hsubmissions, hlog, inOrder])
  | ended outcome ends => exact .ended outcome (hlog ▸ ends)

/-! ## The host -/

/-- The host, the stop signal and the sink, after a run with these labels. -/
structure HostAt (decision : StrategyDecision) (stop : Bool) (events : List BridgeEvent)
    (bridge : Bridge) : Prop where
  unset : bridge.stop = false → stop = false ∧ .stopSet ∉ events ∧ bridge.host ≠ .draining
  ready : bridge.host = .ready → planLog events = [] ∧ .cancel ∉ events ∧ bridge.emitted = [] ∧
    ∃ plan, bridge.worker = .running plan
  awaiting : bridge.host = .awaiting → .cancel ∉ events ∧ bridge.emitted = []
  draining : bridge.host = .draining → .cancel ∈ events ∧ bridge.emitted = []
  returned : ∀ result, bridge.host = .returned result → .cancel ∉ events ∧ bridge.emitted = [] ∧
    ∃ outcome, bridge.worker = .ended outcome ∧
      ((∃ plan, outcome = .ok plan ∧ result = ⟨some plan, none⟩) ∨
        ∃ exc, outcome = .error exc ∧ exc ≠ .cancelled ∧
          result = ⟨none, some (.fromEscape decision exc)⟩)
  cancelled : bridge.host = .cancelled →
    (planLog events = [] ∧ bridge.emitted = []) ∨
    ∃ outcome, bridge.worker = .ended outcome ∧
      bridge.emitted = escapeRecords decision outcome ∧
      (.cancel ∈ events ∨ outcome = .error .cancelled)
  raised : ∀ e, bridge.host = .raised e → bridge.emitted = [] ∧
    (planLog events = [] ∨
      (bridge.worker = .ended (.error (.raised e)) ∧ e.isException = false))

/-- A step of the worker leaves the host where it awaits. -/
theorem HostAt.worker_step (h : HostAt decision stop events bridge) (live : bridge.Live)
    (hevent : event ≠ .stopSet ∧ event ≠ .cancel) (worker : Worker) :
    HostAt decision stop (events ++ [event]) { bridge with worker := worker } := by
  have hcancel : .cancel ∈ events ++ [event] ↔ .cancel ∈ events := by
    simp [List.mem_append, hevent.2.symm]
  have hstop : .stopSet ∈ events ++ [event] ↔ .stopSet ∈ events := by
    simp [List.mem_append, hevent.1.symm]
  refine ⟨?_, ?_, ?_, ?_, ?_, ?_, ?_⟩
  · intro hunset
    rw [hstop]
    exact h.unset hunset
  · intro hready
    rcases live with hlive | hlive <;> exact absurd (hlive.symm.trans hready) (by simp)
  · intro hawaiting
    rw [hcancel]
    exact h.awaiting hawaiting
  · intro hdraining
    rw [hcancel]
    exact h.draining hdraining
  · intro result hreturned
    rcases live with hlive | hlive <;> exact absurd (hlive.symm.trans hreturned) (by simp)
  · intro hcancelled
    rcases live with hlive | hlive <;> exact absurd (hlive.symm.trans hcancelled) (by simp)
  · intro e hraised
    rcases live with hlive | hlive <;> exact absurd (hlive.symm.trans hraised) (by simp)

/-- The cancel path, once a cancellation was delivered or the worker's task was cancelled. -/
theorem hostAt_drain (hset : bridge.stop = true) (hempty : bridge.emitted = [])
    (hcancel : .cancel ∈ events ∨ bridge.worker = .ended (.error .cancelled)) :
    HostAt decision stop events (bridge.drain decision) := by
  unfold Bridge.drain
  split
  · next outcome hended =>
    refine ⟨?_, by simp, by simp, by simp, by simp, ?_, by simp⟩
    · intro hunset
      exact absurd (hset.symm.trans hunset) (by simp)
    · intro _
      refine .inr ⟨outcome, hended, by simp [hempty], ?_⟩
      rcases hcancel with hcancel | hcancelled
      · exact .inl hcancel
      · rw [hended] at hcancelled
        exact .inr (by simpa using hcancelled)
  · next hrunning =>
    refine ⟨?_, by simp, by simp, ?_, by simp, by simp, by simp⟩
    · intro hunset
      exact absurd (hset.symm.trans hunset) (by simp)
    · intro _
      rcases hcancel with hcancel | hcancelled
      · exact ⟨hcancel, hempty⟩
      · exact absurd hcancelled (hrunning _)

/-- The host and the worker, after a run with these labels. -/
structure BridgeInv (inputs : PlanInputs) (decision : StrategyDecision) (stop : Bool)
    (events : List BridgeEvent) (bridge : Bridge) : Prop where
  worker : WorkerAt inputs decision stop events bridge.worker
  host : HostAt decision stop events bridge

theorem BridgeInv.init : BridgeInv inputs decision stop [] (.call inputs decision stop) where
  worker := .running _ .nil rfl
  host := by
    refine ⟨?_, ?_, by simp [Bridge.call], by simp [Bridge.call], by simp [Bridge.call],
      by simp [Bridge.call], by simp [Bridge.call]⟩
    · intro hunset
      exact ⟨hunset, by simp, by simp [Bridge.call]⟩
    · intro _
      exact ⟨rfl, by simp, rfl, _, rfl⟩

@[simp] theorem worker_drain : (bridge.drain decision).worker = bridge.worker := by
  unfold Bridge.drain
  split <;> rfl

@[simp] theorem worker_resumeAwaiting (outcome : Except BridgeExc PlanExecutionResult) :
    (bridge.resumeAwaiting decision outcome).worker = bridge.worker := by
  unfold Bridge.resumeAwaiting
  split
  · rfl
  · rw [worker_drain]
  · split_ifs <;> rfl
  · rfl

@[simp] theorem worker_resumeDraining (outcome : Except BridgeExc PlanExecutionResult) :
    (bridge.resumeDraining decision outcome).worker = bridge.worker := by
  unfold Bridge.resumeDraining
  split
  · split_ifs
    · exact worker_drain
    · rfl
  · exact worker_drain

/-- The worker's end reaches the host at its first await. -/
theorem hostAt_resumeAwaiting (h : HostAt decision stop events bridge)
    (awaiting : bridge.host = .awaiting) {outcome : Except BridgeExc PlanExecutionResult}
    (ended : bridge.worker = .ended outcome) :
    HostAt decision stop (events ++ [.resume]) (bridge.resumeAwaiting decision outcome) := by
  obtain ⟨hcancel, hempty⟩ := h.awaiting awaiting
  have hunset := h.unset
  -- a host that has returned, under the outcome of its worker
  have hreturned : ∀ result : BridgedPlanResult,
      ((∃ plan, outcome = .ok plan ∧ result = ⟨some plan, none⟩) ∨
        ∃ exc, outcome = .error exc ∧ exc ≠ .cancelled ∧
          result = ⟨none, some (.fromEscape decision exc)⟩) →
      HostAt decision stop (events ++ [.resume]) { bridge with host := .returned result } := by
    intro result hresult
    refine ⟨?_, by simp, by simp, by simp, ?_, by simp, by simp⟩
    · intro hstop
      obtain ⟨hstop', hnever, -⟩ := hunset hstop
      exact ⟨hstop', by simpa using hnever, by simp⟩
    · rintro result' hsame
      obtain rfl : result = result' := by simpa using hsame
      exact ⟨by simpa using hcancel, hempty, outcome, ended, hresult⟩
  cases outcome with
  | ok plan => exact hreturned _ (.inl ⟨plan, rfl, rfl⟩)
  | error exc =>
    cases exc with
    | cancelled => exact hostAt_drain rfl hempty (.inr ended)
    | abortedByKill request => exact hreturned _ (.inr ⟨_, rfl, by simp, rfl⟩)
    | uncertainOutcome request => exact hreturned _ (.inr ⟨_, rfl, by simp, rfl⟩)
    | raised e =>
      simp only [Bridge.resumeAwaiting]
      split_ifs with hexception
      · exact hreturned _ (.inr ⟨_, rfl, by simp, rfl⟩)
      · refine ⟨?_, by simp, by simp, by simp, by simp, by simp, ?_⟩
        · intro hstop
          obtain ⟨hstop', hnever, -⟩ := hunset hstop
          exact ⟨hstop', by simpa using hnever, by simp⟩
        · rintro e' hsame
          obtain rfl : e = e' := by simpa using hsame
          exact ⟨hempty, .inr ⟨ended, by simpa using hexception⟩⟩

/-- The worker's end reaches the host on its cancel path. -/
theorem hostAt_resumeDraining (h : HostAt decision stop events bridge)
    (draining : bridge.host = .draining) {outcome : Except BridgeExc PlanExecutionResult}
    (ended : bridge.worker = .ended outcome) :
    HostAt decision stop (events ++ [.resume]) (bridge.resumeDraining decision outcome) := by
  obtain ⟨hcancel, hempty⟩ := h.draining draining
  have hset : bridge.stop = true := by
    by_contra hunset
    exact (h.unset (by simpa using hunset)).2.2 draining
  have hdrained : HostAt decision stop (events ++ [.resume]) (bridge.drain decision) :=
    hostAt_drain hset hempty (.inl (by simpa using hcancel))
  unfold Bridge.resumeDraining
  split
  · next e =>
    split_ifs with hexception
    · exact hdrained
    · refine ⟨?_, by simp, by simp, by simp, by simp, by simp, ?_⟩
      · intro hunset
        exact absurd (hset.symm.trans hunset) (by simp)
      · rintro e' hsame
        obtain rfl : e = e' := by simpa using hsame
        exact ⟨hempty, .inr ⟨ended, by simpa using hexception⟩⟩
  · exact hdrained

/-- The session sets the stop signal. -/
theorem HostAt.stopSet (h : HostAt decision stop events bridge) :
    HostAt decision stop (events ++ [.stopSet]) { bridge with stop := true } where
  unset hunset := by cases hunset
  ready hready := by simpa [BridgeEvent.entry] using h.ready hready
  awaiting hawaiting := by simpa using h.awaiting hawaiting
  draining hdraining := by simpa using h.draining hdraining
  returned result hreturned := by simpa using h.returned result hreturned
  cancelled hcancelled := by simpa [BridgeEvent.entry] using h.cancelled hcancelled
  raised e hraised := by simpa [BridgeEvent.entry] using h.raised e hraised

theorem BridgeInv.step (h : BridgeInv inputs decision stop events bridge)
    (hstep : BridgeStep timeoutS decision bridge event nextBridge) :
    BridgeInv inputs decision stop (events ++ [event]) nextBridge := by
  obtain ⟨hworker, hhost⟩ := h
  cases hstep with
  | start ready valid =>
    obtain ⟨hlog, hcancel, hempty, plan, hrunning⟩ := hhost.ready ready
    refine ⟨hworker.extend (.inl rfl) ?_, ?_⟩
    · rintro ⟨request, next, hcleared⟩
      exact absurd (hrunning.symm.trans hcleared) (by simp)
    · refine ⟨?_, by simp, ?_, by simp, by simp, by simp, by simp⟩
      · intro hunset
        obtain ⟨hstop, hnever, -⟩ := hhost.unset hunset
        exact ⟨hstop, by simpa using hnever, by simp⟩
      · intro _
        exact ⟨by simpa using hcancel, hempty⟩
  | badTimeout ready invalid =>
    obtain ⟨hlog, hcancel, hempty, plan, hrunning⟩ := hhost.ready ready
    refine ⟨hworker.extend (.inl rfl) ?_, ?_⟩
    · rintro ⟨request, next, hcleared⟩
      exact absurd (hrunning.symm.trans hcleared) (by simp)
    · refine ⟨?_, by simp, by simp, by simp, by simp, by simp, ?_⟩
      · intro hunset
        obtain ⟨hstop, hnever, -⟩ := hhost.unset hunset
        exact ⟨hstop, by simpa using hnever, by simp⟩
      · intro _ _
        exact ⟨hempty, .inl (by simpa [BridgeEvent.entry] using hlog)⟩
  | stopSet => exact ⟨hworker.extend (.inr (.inl rfl)) fun _ => .inl rfl, hhost.stopSet⟩
  | cancelReady ready =>
    obtain ⟨hlog, hcancel, hempty, plan, hrunning⟩ := hhost.ready ready
    refine ⟨hworker.extend (.inr (.inr (.inl rfl))) fun _ => .inr rfl, ?_⟩
    refine ⟨?_, by simp, by simp, by simp, by simp, ?_, by simp⟩
    · intro hunset
      obtain ⟨hstop, hnever, -⟩ := hhost.unset hunset
      exact ⟨hstop, by simpa using hnever, by simp⟩
    · intro _
      exact .inl ⟨by simpa [BridgeEvent.entry] using hlog, hempty⟩
  | cancelAwaiting awaiting =>
    refine ⟨?_, hostAt_drain rfl (hhost.awaiting awaiting).2 (.inl (by simp))⟩
    rw [worker_drain]
    exact hworker.extend (.inr (.inr (.inl rfl))) fun _ => .inr rfl
  | cancelDraining draining =>
    have hset : bridge.stop = true := by
      by_contra hunset
      exact (hhost.unset (by simpa using hunset)).2.2 draining
    refine ⟨?_, hostAt_drain hset (hhost.draining draining).2 (.inl (by simp))⟩
    rw [worker_drain]
    exact hworker.extend (.inr (.inr (.inl rfl))) fun _ => .inr rfl
  | @checkClear request next live running unset =>
    refine ⟨?_, hhost.worker_step live (by simp) _⟩
    obtain ⟨hstop, hnever, hdraining⟩ := hhost.unset unset
    have hcancel : .cancel ∉ events := (hhost.awaiting (live.resolve_right hdraining)).1
    rw [running] at hworker
    cases hworker with
    | running plan heard inOrder =>
      refine .cleared request next (by simpa [BridgeEvent.entry] using heard)
        (by simpa [BridgeEvent.entry, BridgeEvent.submission] using inOrder)
        ⟨hstop, events, [], rfl, by simp, hnever, hcancel⟩
  | @checkStopped request next live running set =>
    refine ⟨?_, hhost.worker_step live (by simp) _⟩
    rw [running] at hworker
    cases hworker with
    | running plan heard inOrder =>
      obtain ⟨hcontinued, hdone⟩ := stopped_of_heard heard
      dsimp only
      rw [hdone]
      exact .stopped request (by simpa [BridgeEvent.entry] using hcontinued)
  | @submit request next live cleared =>
    refine ⟨?_, hhost.worker_step live (by simp) _⟩
    rw [cleared] at hworker
    cases hworker with
    | cleared _ _ heard inOrder check =>
      exact .waiting request next (by simpa [BridgeEvent.entry] using heard)
        (by simpa [BridgeEvent.entry, BridgeEvent.submission] using inOrder)
  | @reply request next how live waiting =>
    refine ⟨?_, hhost.worker_step live (by simp) _⟩
    rw [waiting] at hworker
    cases hworker with
    | waiting _ _ heard inOrder =>
      refine .running _ ?_ ?_
      · rw [planLog_concat]
        exact heard.snoc (how.answer request)
      · simpa [BridgeEvent.entry, BridgeEvent.submission, submitted] using inOrder
  | @finish outcome live running =>
    refine ⟨?_, hhost.worker_step live (by simp) _⟩
    rw [running] at hworker
    refine .ended outcome ?_
    cases hworker with
    | running plan heard inOrder =>
      simpa [BridgeEvent.entry] using endsAs_of_heard heard
    | stopped request continued =>
      exact .stopped request (by simpa [BridgeEvent.entry] using continued)
  | resumeAwaiting awaiting ended =>
    refine ⟨?_, hostAt_resumeAwaiting hhost awaiting ended⟩
    rw [worker_resumeAwaiting]
    refine hworker.extend (.inr (.inr (.inr rfl))) ?_
    rintro ⟨request, next, hcleared⟩
    exact absurd (ended.symm.trans hcleared) (by simp)
  | resumeDraining draining ended =>
    refine ⟨?_, hostAt_resumeDraining hhost draining ended⟩
    rw [worker_resumeDraining]
    refine hworker.extend (.inr (.inr (.inr rfl))) ?_
    rintro ⟨request, next, hcleared⟩
    exact absurd (ended.symm.trans hcleared) (by simp)

theorem BridgeInv.of_run (h : BridgeRun timeoutS inputs decision stop events bridge) :
    BridgeInv inputs decision stop events bridge :=
  h.invariant (BridgeInv inputs decision stop) .init fun _ _ _ _ ih hstep => ih.step hstep

/-! ## The order of the submissions -/

/-- The submissions of a run: the plan's first actionable legs in order, each once, each after
answers that all let the plan go on, and each after a check that found no stop. -/
structure Orderly (inputs : PlanInputs) (decision : StrategyDecision) (stop : Bool)
    (events : List BridgeEvent) : Prop where
  inOrder : AsksInOrder inputs decision (submissions events)
  unfrozen : EachAfter (fun before event => ∀ request, event = .submit request →
    ∀ entry ∈ planLog before, GoesOn entry.2) events
  unstopped : EachAfter (fun before event => ∀ request, event = .submit request →
    ClearCheck stop before request) events

/-- What a run has submitted when a leg is cleared. -/
theorem BridgeInv.cleared (h : BridgeInv inputs decision stop events bridge)
    {request : MMExecutionToolRequest}
    {next : Except BridgeExc MMExecutionToolResult → BridgedPlan}
    (hcleared : bridge.worker = .cleared request next) :
    (∀ entry ∈ planLog events, GoesOn entry.2) ∧
      AsksInOrder inputs decision (submissions events ++ [request]) ∧
      ClearCheck stop events request := by
  have hworker := h.worker
  rw [hcleared] at hworker
  cases hworker with
  | cleared _ _ heard inOrder check =>
    cases executePlan_standing heard with
    | asks _ _ continued asked => exact ⟨continued, inOrder ▸ asked, check⟩

theorem submission_cleared (hstep : BridgeStep timeoutS decision bridge event nextBridge)
    {request : MMExecutionToolRequest} (hevent : event = .submit request) :
    ∃ next, bridge.worker = .cleared request next := by
  cases hstep <;> cases hevent
  exact ⟨_, ‹_›⟩

theorem asksInOrder_of_run (h : BridgeRun timeoutS inputs decision stop events bridge) :
    AsksInOrder inputs decision (submissions events) := by
  induction h with
  | nil => exact .nil
  | @snoc events event before after run last ih =>
    rw [submissions_concat]
    cases hsubmission : event.submission with
    | none => simpa using ih
    | some request =>
      have hevent : event = .submit request := by
        cases event <;> simp_all [BridgeEvent.submission]
      obtain ⟨next, hcleared⟩ := submission_cleared last hevent
      exact ((BridgeInv.of_run run).cleared hcleared).2.1

theorem orderly_of_run (h : BridgeRun timeoutS inputs decision stop events bridge) :
    Orderly inputs decision stop events := by
  have hcleared : ∀ before request after, events = before ++ .submit request :: after →
      (∀ entry ∈ planLog before, GoesOn entry.2) ∧ ClearCheck stop before request := by
    rintro before request after rfl
    obtain ⟨middle, middle', hbefore, hstep, -⟩ := h.step_at
    obtain ⟨next, hnext⟩ := submission_cleared hstep rfl
    obtain ⟨hcontinued, -, hcheck⟩ := (BridgeInv.of_run hbefore).cleared hnext
    exact ⟨hcontinued, hcheck⟩
  refine ⟨asksInOrder_of_run h, ?_, ?_⟩
  · rintro before event after hsplit request rfl
    exact (hcleared before request after hsplit).1
  · rintro before event after hsplit request rfl
    exact (hcleared before request after hsplit).2

/-! ## What a finished run has shown -/

/-- The call has returned or raised. -/
def Bridge.Finished (bridge : Bridge) : Prop :=
  bridge.host ≠ .ready ∧ bridge.host ≠ .awaiting ∧ bridge.host ≠ .draining

/-- The records of a call: emitted to the sink, or returned. -/
def Bridge.records (bridge : Bridge) : List FreezeRecord :=
  bridge.emitted ++ match bridge.host with
    | .returned result => result.escaped.toList
    | _ => []

/-- The session is told of a leg in doubt. -/
def Bridge.Shows (bridge : Bridge) : Prop :=
  (∃ result plan, bridge.host = .returned result ∧ result.plan = some plan ∧
      plan.awaitingReconciliation = true) ∨
    ∃ record ∈ bridge.records, record.possiblyLive = true

/-- A leg of a run was submitted and left the book in doubt. -/
def LegInDoubt (events : List BridgeEvent) : Prop := ∃ entry ∈ planLog events, InDoubt entry.2

/-- A call that returns or is cancelled shows a leg in doubt, and only without one does it record an
escape as not live. -/
def Accounts (events : List BridgeEvent) (bridge : Bridge) : Prop :=
  ((∀ e, bridge.host ≠ .raised e) → LegInDoubt events → bridge.Shows) ∧
    ((∃ record ∈ bridge.records, record.possiblyLive = false) → ¬ LegInDoubt events)

/-- No leg's proposer is cancelled or raises the bridge's own `AbortedByKill`, and no leg's result is
possibly unresolved in a call whose host is cancelled. -/
def Undisturbed (events : List BridgeEvent) : Prop :=
  (∀ request, .reply request (.raised .cancelled) ∉ events) ∧
    (∀ request killed, .reply request (.raised (.abortedByKill killed)) ∉ events) ∧
    (.cancel ∈ events → ∀ request result, .reply request (.result result) ∈ events →
      isPossiblyUnresolved result = false)

theorem undisturbed_iff : Undisturbed events ↔
    (∀ entry ∈ planLog events, entry.2 ≠ .error .cancelled) ∧
    (∀ entry ∈ planLog events, ∀ killed, entry.2 ≠ .error (.abortedByKill killed)) ∧
    (.cancel ∈ events → ∀ entry ∈ planLog events, ∀ result, entry.2 = .ok result →
      isPossiblyUnresolved result = false) := by
  constructor
  · rintro ⟨hcancelled, hkilled, hcancel⟩
    refine ⟨?_, ?_, ?_⟩
    · intro entry hentry hanswer
      obtain ⟨request, how, hmem, rfl⟩ := mem_planLog.mp hentry
      cases how with
      | raised e =>
        cases hanswer
        exact hcancelled request hmem
      | result | timedOut => cases hanswer
    · intro entry hentry killed hanswer
      obtain ⟨request, how, hmem, rfl⟩ := mem_planLog.mp hentry
      cases how with
      | raised e =>
        cases hanswer
        exact hkilled request killed hmem
      | result | timedOut => cases hanswer
    · intro hmem' entry hentry result hanswer
      obtain ⟨request, how, hmem, rfl⟩ := mem_planLog.mp hentry
      cases how with
      | result answer =>
        cases hanswer
        exact hcancel hmem' request _ hmem
      | raised | timedOut => cases hanswer
  · rintro ⟨hcancelled, hkilled, hcancel⟩
    refine ⟨fun request hmem => ?_, fun request killed hmem => ?_, fun hmem' request result hmem => ?_⟩
    · exact hcancelled _ (mem_planLog.mpr ⟨_, _, hmem, rfl⟩) rfl
    · exact hkilled _ (mem_planLog.mpr ⟨_, _, hmem, rfl⟩) killed rfl
    · exact hcancel hmem' _ (mem_planLog.mpr ⟨_, _, hmem, rfl⟩) result rfl

theorem goesOn_inv {answer : Except BridgeExc MMExecutionToolResult} (h : GoesOn answer) :
    ∃ result, answer = .ok result ∧ isPossiblyUnresolved result = false := by
  cases answer with
  | error e => exact h.elim
  | ok result =>
    simp only [goesOn_ok, freezesFreshWrites, Bool.or_eq_false_iff] at h
    exact ⟨result, rfl, h.1⟩

theorem undisturbed_of_continued (h : ∀ entry ∈ planLog events, GoesOn entry.2) :
    Undisturbed events := by
  rw [undisturbed_iff]
  refine ⟨fun entry hentry hanswer => ?_, fun entry hentry killed hanswer => ?_,
    fun _ entry hentry result hanswer => ?_⟩
  · obtain ⟨result, hok, -⟩ := goesOn_inv (h entry hentry)
    rw [hok] at hanswer
    cases hanswer
  · obtain ⟨result, hok, -⟩ := goesOn_inv (h entry hentry)
    rw [hok] at hanswer
    cases hanswer
  · obtain ⟨result', hok, hresolved⟩ := goesOn_inv (h entry hentry)
    rw [hok] at hanswer
    cases hanswer
    exact hresolved

theorem not_legInDoubt_of_continued (h : ∀ entry ∈ planLog events, GoesOn entry.2) :
    ¬ LegInDoubt events := by
  rintro ⟨entry, hentry, hdoubt⟩
  exact not_inDoubt_of_goesOn (h entry hentry) hdoubt

/-- **What an outcome says** of the legs in doubt, and of the disturbances. -/
theorem EndsAs.verdict {outcome : Except BridgeExc PlanExecutionResult}
    (h : EndsAs (planLog events) outcome) :
    (∃ plan, outcome = .ok plan ∧ (LegInDoubt events ↔ plan.awaitingReconciliation = true) ∧
      (Undisturbed events ↔ (.cancel ∈ events → plan.awaitingReconciliation = false))) ∨
    (∃ exc, outcome = .error exc ∧ ¬ LegInDoubt events ∧ Undisturbed events) ∨
    ∃ exc, outcome = .error exc ∧ LegInDoubt events ∧
      (Undisturbed events ↔ exc ≠ .cancelled ∧ ∀ killed, exc ≠ .abortedByKill killed) := by
  cases h with
  | returned plan answered awaiting =>
    refine .inl ⟨plan, rfl, awaiting.symm, ?_⟩
    rw [undisturbed_iff]
    constructor
    · rintro ⟨-, -, hcancel⟩ hmem
      by_contra hawaits
      obtain ⟨entry, hentry, hdoubt⟩ := awaiting.mp (by simpa using hawaits)
      obtain ⟨result, hok⟩ := answered entry hentry
      rw [hok] at hdoubt
      exact absurd hdoubt (by simp [InDoubt, hcancel hmem entry hentry result hok])
    · intro hcancel
      refine ⟨fun entry hentry hanswer => ?_, fun entry hentry killed hanswer => ?_,
        fun hmem entry hentry result hanswer => ?_⟩
      · obtain ⟨result, hok⟩ := answered entry hentry
        rw [hok] at hanswer
        cases hanswer
      · obtain ⟨result, hok⟩ := answered entry hentry
        rw [hok] at hanswer
        cases hanswer
      · by_contra hunresolved
        have hawaits := awaiting.mpr ⟨entry, hentry, by
          rw [hanswer]
          simpa [InDoubt] using hunresolved⟩
        rw [hcancel hmem] at hawaits
        cases hawaits
  | refused e continued isException =>
    exact .inr (.inl ⟨_, rfl, not_legInDoubt_of_continued continued,
      undisturbed_of_continued continued⟩)
  | stopped request continued =>
    exact .inr (.inl ⟨_, rfl, not_legInDoubt_of_continued continued,
      undisturbed_of_continued continued⟩)
  | escaped init request e last continued =>
    have hlast : (request, .error e) ∈ planLog events := by simp [last]
    refine .inr (.inr ⟨e, rfl, ⟨_, hlast, trivial⟩, ?_⟩)
    rw [undisturbed_iff]
    constructor
    · rintro ⟨hcancelled, hkilled, -⟩
      refine ⟨?_, ?_⟩
      · rintro rfl
        exact hcancelled _ hlast rfl
      · rintro killed rfl
        exact hkilled _ hlast killed rfl
    · rintro ⟨hcancelled, hkilled⟩
      -- every other answer let the plan go on, so it is a resolved result
      have hcases : ∀ entry ∈ planLog events, entry.2 = .error e ∨
          ∃ result, entry.2 = .ok result ∧ isPossiblyUnresolved result = false := by
        intro entry hentry
        rw [last] at hentry
        rcases List.mem_append.mp hentry with hentry | hentry
        · exact .inr (goesOn_inv (continued entry hentry))
        · rw [List.mem_singleton.mp hentry]
          exact .inl rfl
      refine ⟨fun entry hentry hanswer => ?_, fun entry hentry killed hanswer => ?_,
        fun _ entry hentry result hanswer => ?_⟩
      · rcases hcases entry hentry with herror | ⟨result, hok, -⟩
        · exact hcancelled (by simpa [herror] using hanswer)
        · simp [hok] at hanswer
      · rcases hcases entry hentry with herror | ⟨result, hok, -⟩
        · exact hkilled killed (by simpa [herror] using hanswer)
        · simp [hok] at hanswer
      · rcases hcases entry hentry with herror | ⟨result', hok, hresolved⟩
        · simp [herror] at hanswer
        · rw [hok] at hanswer
          cases hanswer
          exact hresolved

theorem fromEscape_not_live {exc : BridgeExc} :
    (FreezeRecord.fromEscape decision exc).possiblyLive = false ↔
      ∃ killed, exc = .abortedByKill killed := by
  cases exc <;> simp [FreezeRecord.fromEscape]

/-- One record, of an escape that left a leg in doubt, shows it unless it is marked as killed. -/
theorem accounts_of_record {exc : BridgeExc} (hdoubt : LegInDoubt events)
    (hrecords : bridge.records = [.fromEscape decision exc]) :
    Accounts events bridge ↔ ∀ killed, exc ≠ .abortedByKill killed := by
  unfold Accounts Bridge.Shows
  rw [hrecords]
  simp only [List.mem_singleton, exists_eq_left]
  constructor
  · rintro ⟨-, hdead⟩ killed rfl
    exact hdead (fromEscape_not_live.mpr ⟨killed, rfl⟩) hdoubt
  · intro halive
    have hlive : ¬ (FreezeRecord.fromEscape decision exc).possiblyLive = false := by
      rw [fromEscape_not_live]
      rintro ⟨killed, rfl⟩
      exact halive killed rfl
    exact ⟨fun _ _ => .inr (by simpa using hlive), fun hdead => absurd hdead hlive⟩

/-- Without a leg in doubt there is nothing to show. -/
theorem accounts_of_settled (h : ¬ LegInDoubt events) : Accounts events bridge :=
  ⟨fun _ hdoubt => absurd hdoubt h, fun _ => h⟩

theorem not_legInDoubt_of_unasked (h : planLog events = []) : ¬ LegInDoubt events := by
  simp [LegInDoubt, h]

theorem undisturbed_of_unasked (h : planLog events = []) : Undisturbed events :=
  undisturbed_of_continued (by simp [h])

theorem BridgeInv.ends (h : BridgeInv inputs decision stop events bridge)
    {outcome : Except BridgeExc PlanExecutionResult} (hended : bridge.worker = .ended outcome) :
    EndsAs (planLog events) outcome := by
  have hworker := h.worker
  rw [hended] at hworker
  cases hworker with
  | ended _ ends => exact ends

theorem accounts_iff_of_returned (h : BridgeInv inputs decision stop events bridge)
    {result : BridgedPlanResult} (hreturned : bridge.host = .returned result) :
    Accounts events bridge ↔ Undisturbed events := by
  obtain ⟨hcancel, hempty, outcome, hended, hresult⟩ := h.host.returned result hreturned
  rcases (h.ends hended).verdict with ⟨plan, rfl, hdoubt, hundisturbed⟩ |
    ⟨exc, rfl, hdoubt, hundisturbed⟩ | ⟨exc, rfl, hdoubt, hundisturbed⟩
  · rcases hresult with ⟨plan', hsame, rfl⟩ | ⟨exc, hsame, -, -⟩
    · cases hsame
      refine iff_of_true ⟨fun _ hin => ?_, ?_⟩ (hundisturbed.mpr fun hmem => absurd hmem hcancel)
      · exact .inl ⟨_, plan, hreturned, rfl, hdoubt.mp hin⟩
      · rintro ⟨record, hrecord, -⟩
        simp [Bridge.records, hempty, hreturned] at hrecord
    · cases hsame
  · exact iff_of_true (accounts_of_settled hdoubt) hundisturbed
  · rcases hresult with ⟨plan, hsame, -⟩ | ⟨exc', hsame, hlive, rfl⟩
    · cases hsame
    · cases hsame
      have hrecords : bridge.records = [.fromEscape decision exc] := by
        simp [Bridge.records, hempty, hreturned]
      rw [hundisturbed, accounts_of_record hdoubt hrecords]
      exact ⟨fun hkilled => ⟨hlive, hkilled⟩, And.right⟩

theorem accounts_iff_of_cancelled (h : BridgeInv inputs decision stop events bridge)
    (hcancelled : bridge.host = .cancelled) : Accounts events bridge ↔ Undisturbed events := by
  rcases h.host.cancelled hcancelled with ⟨hlog, -⟩ | ⟨outcome, hended, hemitted, hwhy⟩
  · exact iff_of_true (accounts_of_settled (not_legInDoubt_of_unasked hlog))
      (undisturbed_of_unasked hlog)
  · have hrecords : bridge.records = escapeRecords decision outcome := by
      simp [Bridge.records, hcancelled, hemitted]
    rcases (h.ends hended).verdict with ⟨plan, rfl, hdoubt, hundisturbed⟩ |
      ⟨exc, rfl, hdoubt, hundisturbed⟩ | ⟨exc, rfl, hdoubt, hundisturbed⟩
    · have hcancel : .cancel ∈ events := by simpa using hwhy
      have hsilent : ¬ bridge.Shows := by
        simp [Bridge.Shows, hcancelled, hrecords, escapeRecords]
      rw [hundisturbed]
      constructor
      · rintro ⟨hshows, -⟩ -
        by_contra hawaits
        exact hsilent (hshows (by simp [hcancelled]) (hdoubt.mpr (by simpa using hawaits)))
      · intro hawaits
        refine accounts_of_settled ?_
        rw [hdoubt, hawaits hcancel]
        simp
    · exact iff_of_true (accounts_of_settled hdoubt) hundisturbed
    · rw [hundisturbed]
      by_cases hexc : exc = .cancelled
      · subst hexc
        refine iff_of_false ?_ (by simp)
        rintro ⟨hshows, -⟩
        have hshown := hshows (by simp [hcancelled]) hdoubt
        simp [Bridge.Shows, hcancelled, hrecords, escapeRecords] at hshown
      · have hrecord : escapeRecords decision (.error exc) = [.fromEscape decision exc] := by
          cases exc <;> simp_all [escapeRecords]
        rw [accounts_of_record hdoubt (hrecords.trans hrecord)]
        exact ⟨fun hkilled => ⟨hexc, hkilled⟩, And.right⟩

theorem accounts_iff_of_raised (h : BridgeInv inputs decision stop events bridge) {e : PyExc}
    (hraised : bridge.host = .raised e) : Accounts events bridge ↔ Undisturbed events := by
  obtain ⟨hempty, hlog⟩ := h.host.raised e hraised
  have haccounts : Accounts events bridge :=
    ⟨fun hnever => absurd hraised (hnever e), by simp [Bridge.records, hempty, hraised]⟩
  refine iff_of_true haccounts ?_
  rcases hlog with hlog | ⟨hended, -⟩
  · exact undisturbed_of_unasked hlog
  · rcases (h.ends hended).verdict with ⟨_, hsame, -⟩ | ⟨_, _, _, hundisturbed⟩ |
      ⟨exc, hsame, -, hundisturbed⟩
    · cases hsame
    · exact hundisturbed
    · cases hsame
      exact hundisturbed.mpr ⟨by simp, by simp⟩

/-- **The bridge forgets no leg**, in order and stoppable in every run, and accounted for when it
finishes iff the run was undisturbed. -/
theorem bridge_accounts_iff (timeoutS : PyFloat) (inputs : PlanInputs) (decision : StrategyDecision)
    (stop : Bool) (events : List BridgeEvent) (bridge : Bridge)
    (h : BridgeRun timeoutS inputs decision stop events bridge) :
    Orderly inputs decision stop events ∧
      (bridge.Finished → (Accounts events bridge ↔ Undisturbed events)) := by
  refine ⟨orderly_of_run h, ?_⟩
  have hinv := BridgeInv.of_run h
  rintro ⟨hready, hawaiting, hdraining⟩
  cases hhost : bridge.host with
  | ready => exact absurd hhost hready
  | awaiting => exact absurd hhost hawaiting
  | draining => exact absurd hhost hdraining
  | returned result => exact accounts_iff_of_returned hinv hhost
  | cancelled => exact accounts_iff_of_cancelled hinv hhost
  | raised e => exact accounts_iff_of_raised hinv hhost

/-! ## One bid -/

namespace OneBid

theorem not_replacement : NeutralIntentKind.placeQuote = .replaceQuote →
    ∃ old ∈ (none : Option String), old ≠ "" := by simp

theorem unnamed : NeutralIntentKind.placeQuote ≠ .replaceQuote → (none : Option String) = none := by simp

/-- A plan of one bid. -/
def bidDecision : StrategyDecision where
  intentPlan := [
    { kind := .placeQuote, legRole := some .bid, price := some 0,
      replacement_named := not_replacement, other_unnamed := unnamed }]
  plan_singlePhase := by simp [SinglePhase, NeutralIntentKind.isCancelPhase]

def bidInputs : PlanInputs where
  platform := flatPlatform
  digests := DustExecution.ArmedRun.digests
  observation := healthyFrame 1 0 (1 / 2) (3 / 5) []
  config := ⟨"strategy", "config", "policy", "session", "manifest", .liveGuarded, .gtc⟩
  manifest := DustExecution.ArmedRun.manifest []
  envelope := DustExecution.ArmedRun.envelope
  strategyConfig := promptConfig false

def bidRequest : MMExecutionToolRequest where
  intentKind := .makeQuote
  intentParams := { tokenId := some "t", side := some "BUY", price := some ⟨0, by decide⟩, tif := some .gtc }
  strategyId := "strategy"
  strategyConfigHash := "config"
  policyHash := "policy"
  sessionId := "session"
  manifestHash := "manifest"
  evidenceClass := .experimentalDust
  mode := .liveGuarded

/-- The venue's acknowledgement is uncertain. -/
def uncertainAck : MMExecutionToolResult where
  admission := .approved
  reasonCodes := []
  executionStatus := .submitted
  lifecycleReceiptRef := "receipt"
  evidenceClass := .experimentalDust
  policyHash := "policy"

/-- The bid is submitted, and the host is cancelled while the bid is in flight. -/
def cancelledEvents : List BridgeEvent :=
  [.start, .check bidRequest, .submit bidRequest, .cancel, .reply bidRequest (.result uncertainAck),
    .finish, .resume]

theorem cancelled_run : ∃ bridge,
    BridgeRun (.fin 1) bidInputs bidDecision false cancelledEvents bridge ∧
      bridge.host = .cancelled ∧ bridge.emitted = [] := by
  refine ⟨_, .cons (.start rfl rfl) <| .cons (.checkClear (.inl rfl) rfl rfl) <|
    .cons (.submit (.inl rfl) rfl) <| .cons (.cancelAwaiting rfl) <|
    .cons (.reply _ (.inr rfl) rfl) <| .cons (.finish (.inr rfl) rfl) <|
    .cons (.resumeDraining rfl rfl) .nil, rfl, rfl⟩

/-- **A cancelled host forgets** the bid: nothing is returned and nothing is emitted. -/
theorem cancelled_bid_forgotten :
    ¬ ∀ (timeoutS : PyFloat) (inputs : PlanInputs) (decision : StrategyDecision) (stop : Bool)
        (events : List BridgeEvent) (bridge : Bridge),
        BridgeRun timeoutS inputs decision stop events bridge →
        Orderly inputs decision stop events ∧ (bridge.Finished → Accounts events bridge) := by
  intro h
  obtain ⟨bridge, hrun, hhost, hempty⟩ := cancelled_run
  have hfinished : bridge.Finished := by simp [Bridge.Finished, hhost]
  obtain ⟨hshows, -⟩ := (h _ _ _ _ _ _ hrun).2 hfinished
  have hdoubt : LegInDoubt cancelledEvents := ⟨(bidRequest, .ok uncertainAck), by decide, rfl⟩
  have hshown := hshows (by simp [hhost]) hdoubt
  simp [Bridge.Shows, Bridge.records, hhost, hempty] at hshown

theorem bridge_accounts_iff_cancelled : ∃ bridge,
    BridgeRun (.fin 1) bidInputs bidDecision false cancelledEvents bridge ∧
      Orderly bidInputs bidDecision false cancelledEvents ∧
      (bridge.Finished → (Accounts cancelledEvents bridge ↔ Undisturbed cancelledEvents)) := by
  obtain ⟨bridge, hrun, -⟩ := cancelled_run
  exact ⟨bridge, hrun, bridge_accounts_iff (.fin 1) bidInputs bidDecision false cancelledEvents
    bridge hrun⟩

end OneBid

end Veridex.MmStrategy
