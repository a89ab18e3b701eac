import Veridex.Api.Start
import Veridex.Execution.LaneEvents
import Veridex.Execution.SealedLane
import Veridex.Lib.TaskRules
import Veridex.Runtime.LiveCalls

/-!
# The log of a start (`competition/service.py`, `competition/events.py`)

Alone on the store, a start that returns has sealed its run, and what can be read of the competition's
log is the projection of that run, with the lane's events behind it.

Results: `startCompetition_projects`, `mean_overflows`.
-/

namespace Veridex.Api

open Veridex.Competition Veridex.Lib Veridex.Policy Veridex.Py Veridex.Runtime Veridex.Scoring
open Veridex.Execution (Answer Await Block Shell runExecutionLane_block)
open Veridex.Law (SourceMode)
open Veridex.Store Task

variable {Fair : Mark (Call Outside) Reply Store.Raised → Prop} {s s' : InMemoryStore}

/-! ## What is read of a log -/

/-- What `list_competition_events(competition_id, since_seq=-1)` reads. -/
def visible (store : InMemoryStore) (competitionId : String) : List CompetitionEvent :=
  ((store.competitionEvents competitionId).mergeSort fun a b => a.seq ≤ b.seq).filter
    fun event => -1 < event.seq

/-- What is read is what is stored, in the order of the numbers. -/
theorem visible_perm (store : InMemoryStore) (competitionId : String) :
    (visible store competitionId).Perm
      ((store.competitionEvents competitionId).filter fun event => -1 < event.seq) :=
  (List.mergeSort_perm _ _).filter _

theorem visible_eq {store : InMemoryStore} {competitionId : String} {events : List CompetitionEvent}
    (hperm : events.Perm ((store.competitionEvents competitionId).filter fun event => -1 < event.seq))
    (hsorted : events.Pairwise fun a b => a.seq < b.seq) : visible store competitionId = events := by
  have hmerged : ((store.competitionEvents competitionId).mergeSort fun a b => a.seq ≤ b.seq).Pairwise
      fun a b => decide (a.seq ≤ b.seq) = true :=
    List.pairwise_mergeSort (fun a b c hab hbc => by simp only [decide_eq_true_eq] at *; omega)
      (fun a b => by simp only [Bool.or_eq_true, decide_eq_true_eq]; omega) _
  have hvisible : (visible store competitionId).Pairwise fun a b => a.seq ≤ b.seq :=
    (hmerged.imp fun h => of_decide_eq_true h).filter _
  have hperm' := (visible_perm store competitionId).trans hperm.symm
  have hnodup : (events.map (·.seq)).Nodup :=
    List.pairwise_map.mpr (hsorted.imp fun h => ne_of_lt h)
  refine List.Perm.eq_of_pairwise ?_ hvisible (hsorted.imp le_of_lt) hperm'
  intro a b ha hb hab hba
  exact List.inj_on_of_nodup_map hnodup (hperm'.mem_iff.mp ha) hb (le_antisymm hab hba)

/-- Numbered events are in their order. -/
theorem pairwise_of_numbered {events : List CompetitionEvent}
    (h : events.map (·.seq) = (List.range events.length).map (Nat.cast : ℕ → ℤ)) :
    events.Pairwise fun a b => a.seq < b.seq := by
  have hrange : ((List.range events.length).map (Nat.cast : ℕ → ℤ)).Pairwise (· < ·) := by
    rw [List.pairwise_map]
    exact List.pairwise_lt_range.imp fun hlt => by exact_mod_cast hlt
  rw [← h] at hrange
  exact List.pairwise_map.mp hrange

/-- **More of a log** is read behind it. -/
theorem visible_append {store store' : InMemoryStore} {competitionId : String}
    {log more : List CompetitionEvent} (hlog : visible store competitionId = log)
    (hstored : store'.competitionEvents competitionId = store.competitionEvents competitionId ++ more)
    (hnumbered : (log ++ more).map (·.seq) =
      (List.range (log ++ more).length).map (Nat.cast : ℕ → ℤ)) :
    visible store' competitionId = log ++ more := by
  have hmore : more.filter (fun event => -1 < event.seq) = more := by
    rw [List.filter_eq_self]
    intro event hevent
    have hmem := List.mem_map_of_mem (f := CompetitionEvent.seq) (List.mem_append_right log hevent)
    rw [hnumbered] at hmem
    obtain ⟨i, -, hseq⟩ := List.mem_map.mp hmem
    rw [decide_eq_true_eq]
    omega
  refine visible_eq ?_ (pairwise_of_numbered hnumbered)
  rw [hstored, List.filter_append, hmore, ← hlog]
  exact (visible_perm store competitionId).append_right more

/-! ## The calls of a start -/

/-- What is stored of a competition's log, and the runs, are as they were. -/
structure Untouched (competitionId : String) (s s' : InMemoryStore) : Prop where
  events : s'.competitionEvents competitionId = s.competitionEvents competitionId
  runs : s'.runs = s.runs

/-- Some events went on a competition's log. -/
structure Appended (competitionId : String) (events : List CompetitionEvent) (s s' : InMemoryStore) :
    Prop where
  events : s'.competitionEvents competitionId = s.competitionEvents competitionId ++ events
  runs : s'.runs = s.runs

section Calls

variable {competitionId : String} {α : Type} {outcome : Except Store.Raised α}

theorem Untouched.trans {s'' : InMemoryStore} (h : Untouched competitionId s s')
    (h' : Untouched competitionId s' s'') : Untouched competitionId s s'' :=
  ⟨h'.events.trans h.events, h'.runs.trans h.runs⟩

theorem ends_append_ok {events : List CompetitionEvent} {u : Unit}
    (h : Ends Fair s (appendCompetitionEvents competitionId events : Request Unit) s' (.ok u)) :
    Appended competitionId events s s' ∧
      ∀ event ∈ events, event.seq ∉ (s.competitionEvents competitionId).map (·.seq) := by
  obtain ⟨rfl, hok⟩ | ⟨e, -, -, he⟩ := ends_perform h
  · unfold InMemoryStore.appendCompetitionEvents at hok ⊢
    cases hfirst : InMemoryStore.firstDuplicateSeq
        ((s.competitionEvents competitionId).map (·.seq)) (events.map (·.seq)) with
    | some seq =>
      simp only [hfirst] at hok
      exact nomatch hok
    | none =>
      simp only [hfirst]
      have hfree := (InMemoryStore.firstDuplicateSeq_eq_none.mp hfirst).2
      exact ⟨⟨Function.update_self .., rfl⟩, fun event hevent => hfree _ (List.mem_map_of_mem hevent)⟩
  · exact nomatch he

/-- A broadcast leaves the store alone. -/
theorem ends_safeBroadcast {event : CompetitionEvent} {outcome : Except Store.Raised Unit}
    (h : Ends Fair s (safeBroadcast event) s' outcome) : s' = s := by
  obtain ⟨u, hbody, -⟩ | ⟨middle, e, hbody, hhandler⟩ := ends_catching h
  · obtain ⟨middle, answer, hanswer, hend⟩ := ends_bind_ok hbody
    obtain rfl := (ends_request hanswer).1
    exact (ends_pure.mp hend).1
  · have hmiddle : middle = s := by
      obtain ⟨middle', answer, -, hend⟩ | ⟨e', hfail, -⟩ := ends_bind hbody
      · exact nomatch (ends_pure.mp hend).2
      · exact (ends_request hfail).1
    subst hmiddle
    split_ifs at hhandler
    · exact (ends_pure.mp hhandler).1
    · exact (ends_raise.mp hhandler).1

theorem ends_safeBroadcastAll {events : List CompetitionEvent} {outcome : Except Store.Raised Unit}
    (h : Ends Fair s (safeBroadcastAll events) s' outcome) : s' = s := by
  induction events generalizing s with
  | nil => exact (ends_pure.mp h).1
  | cons event events ih =>
    obtain ⟨middle, u, hfirst, hrest⟩ | ⟨e, hfirst, -⟩ := ends_bind h
    · obtain rfl := ends_safeBroadcast hfirst
      exact ih hrest
    · exact ends_safeBroadcast hfirst

/-- Where something is broadcast before a task that returns. -/
theorem ends_broadcastIf_ok {broadcast : Bool} {task : Request Unit} {rest : Request α} {a : α}
    (htask : ∀ {s'} {outcome}, Ends Fair s task s' outcome → s' = s)
    (h : Ends Fair s (if broadcast = true then task >>= fun _ => rest else rest) s' (.ok a)) :
    Ends Fair s rest s' (.ok a) := by
  split_ifs at h
  · obtain ⟨middle, u, hfirst, hrest⟩ := ends_bind_ok h
    obtain rfl := htask hfirst
    exact hrest
  · exact h

/-- A call that changes a competition changes no log and no run. -/
theorem withCompetition_untouched (id : String) {body : Competition → Except Store.Raised (α × Competition)}
    (s : InMemoryStore) : Untouched competitionId s (InMemoryStore.withCompetition id body s).2 := by
  unfold InMemoryStore.withCompetition
  split
  · exact ⟨rfl, rfl⟩
  · split <;> exact ⟨rfl, rfl⟩

theorem ends_updateStatus {id : String} {status : CompetitionStatus}
    {outcome : Except Store.Raised Unit}
    (h : Ends Fair s (updateCompetitionStatus id status : Request Unit) s' outcome) :
    Untouched competitionId s s' := by
  obtain ⟨rfl, -⟩ | ⟨-, -, rfl, -⟩ := ends_perform h
  · exact withCompetition_untouched _ _
  · exact ⟨rfl, rfl⟩

theorem ends_updateRunId {id runId : String} {outcome : Except Store.Raised Unit}
    (h : Ends Fair s (updateCompetitionRunId id runId : Request Unit) s' outcome) :
    Untouched competitionId s s' := by
  obtain ⟨rfl, -⟩ | ⟨-, -, rfl, -⟩ := ends_perform h
  · exact withCompetition_untouched _ _
  · exact ⟨rfl, rfl⟩

theorem ends_getCompetition {id : String} {outcome : Except Store.Raised Competition}
    (h : Ends Fair s (getCompetition id : Request Competition) s' outcome) : s' = s := by
  obtain ⟨rfl, -⟩ | ⟨-, -, rfl, -⟩ := ends_perform h
  · exact InMemoryStore.getCompetition_reads _ _
  · rfl

theorem ends_ofPure {x : Except PyExc α} {a : α} :
    Ends Fair s (ofPure x) s' (.ok a) ↔ s' = s ∧ x = .ok a := by
  cases x with
  | ok b =>
    rw [ofPure, ends_pure, Except.ok.injEq, Except.ok.injEq, eq_comm (a := a)]
  | error e =>
    rw [ofPure, ends_raise]
    exact ⟨fun h => (nomatch h.2), fun h => (nomatch h.2)⟩

end Calls

/-! ## The live evidence -/

/-- A sealed event's evidence follows that of the events before it. -/
theorem evidenceEvents_append {format : Json.FloatFormat PyFloat} {sha256 : List Char → String}
    {competitionId runId : String} {runEvents : List RunEvent} {runEvent : RunEvent}
    {clock clock' nextTs : ℤ} {events : List CompetitionEvent} {event : CompetitionEvent}
    (h : evidenceEvents format sha256 competitionId runId clock runEvents = .ok events)
    (hclock : runEvents.foldlM (nextTickTs format) clock = .ok clock')
    (hevent : buildEvidenceEvent format sha256 competitionId runId runEvent clock' =
      .ok (event, nextTs)) :
    evidenceEvents format sha256 competitionId runId clock (runEvents ++ [runEvent]) =
        .ok (events ++ [event]) ∧
      (runEvents ++ [runEvent]).foldlM (nextTickTs format) clock = .ok nextTs := by
  have hnext : nextTickTs format clock' runEvent = .ok nextTs := by
    obtain ⟨ts, hts, hevent⟩ := bind_eq_ok.mp hevent
    obtain ⟨shown, -, hevent⟩ := bind_eq_ok.mp hevent
    obtain ⟨-, rfl⟩ := Prod.mk.inj (Except.ok.inj hevent)
    exact hts
  refine ⟨?_, ?_⟩
  · induction runEvents generalizing clock events with
    | nil =>
      obtain rfl := Except.ok.inj h
      obtain rfl := Except.ok.inj hclock
      exact bind_eq_ok.mpr ⟨_, hevent, rfl⟩
    | cons first rest ih =>
      obtain ⟨⟨built, middle⟩, hbuilt, h⟩ := bind_eq_ok.mp h
      obtain ⟨more, hmore, h⟩ := bind_eq_ok.mp h
      obtain rfl := Except.ok.inj h
      rw [List.foldlM_cons] at hclock
      obtain ⟨middle', hmiddle, hclock⟩ := bind_eq_ok.mp hclock
      obtain rfl : middle = middle' := by
        obtain ⟨ts, hts, hbuilt⟩ := bind_eq_ok.mp hbuilt
        obtain ⟨shown, -, hbuilt⟩ := bind_eq_ok.mp hbuilt
        obtain ⟨-, rfl⟩ := Prod.mk.inj (Except.ok.inj hbuilt)
        exact Except.ok.inj (hts.symm.trans hmiddle)
      exact bind_eq_ok.mpr ⟨_, hbuilt, bind_eq_ok.mpr ⟨_, ih hmore hclock, rfl⟩⟩
  · rw [List.foldlM_append]
    exact bind_eq_ok.mpr ⟨clock', hclock, bind_eq_ok.mpr ⟨nextTs, hnext, rfl⟩⟩

namespace StartInputs

section Live

variable {format : Json.FloatFormat PyFloat} {sha256 : List Char → String} {inputs : StartInputs}
  {state state' : CompetitionRun × ℤ} {before : InMemoryStore}

/-- What the sink has appended since a state is the evidence of the events of the run, and the clock
is that of the last. -/
structure Live (format : Json.FloatFormat PyFloat) (sha256 : List Char → String)
    (inputs : StartInputs) (before s : InMemoryStore) (state : CompetitionRun × ℤ) : Prop where
  appended : ∃ evidence, Appended inputs.competitionId evidence before s ∧
    evidenceEvents format sha256 inputs.competitionId inputs.runId inputs.baseTs state.1.rawEvents =
      .ok evidence
  clock : state.1.rawEvents.foldlM (nextTickTs format) inputs.baseTs = .ok state.2

/-- **One event** emitted to the sink. -/
theorem Live.emit {body : EventBody} {clock : ℤ} {run : CompetitionRun}
    (h : Live format sha256 inputs before s state)
    (hrun : run.rawEvents = state.1.rawEvents ++ [{ body with sequenceNo := state.1.sequenceNo }])
    (hends : Ends Fair s (inputs.emit format sha256 state body) s' (.ok clock)) :
    Live format sha256 inputs before s' (run, clock) := by
  obtain ⟨evidence, happended, hevidence⟩ := h.appended
  obtain ⟨s₁, ⟨event, nextTs⟩, hbuilt, hsink⟩ := ends_bind_ok hends
  obtain ⟨rfl, hevent⟩ := ends_ofPure.mp hbuilt
  obtain ⟨s₂, _, happend, hsent⟩ := ends_bind_ok hsink
  obtain ⟨hstored, -⟩ := ends_append_ok happend
  obtain ⟨rfl, hclock⟩ := ends_pure.mp (ends_broadcastIf_ok ends_safeBroadcast hsent)
  obtain rfl := Except.ok.inj hclock
  obtain ⟨hevidence', hclock'⟩ := evidenceEvents_append hevidence h.clock hevent
  refine ⟨⟨evidence ++ [event], ⟨?_, hstored.runs.trans happended.runs⟩, ?_⟩, ?_⟩
  · rw [hstored.events, happended.events, List.append_assoc]
  · rw [hrun]
    exact hevidence'
  · rw [hrun]
    exact hclock'

theorem Live.tick {snapshot : MarketState} (h : Live format sha256 inputs before s state)
    (hends : Ends Fair s (inputs.tick format sha256 state snapshot) s' (.ok state')) :
    state'.1 = state.1.tick format snapshot ∧ Live format sha256 inputs before s' state' := by
  obtain ⟨middle, clock, hemit, hends⟩ := ends_bind_ok hends
  obtain ⟨rfl, hstate⟩ := ends_pure.mp hends
  obtain rfl := Except.ok.inj hstate
  exact ⟨rfl, h.emit rfl hemit⟩

theorem record_rawEvents (run : CompetitionRun) (snapshot : MarketState) (result : Agent × Outcome) :
    (run.record format snapshot result).rawEvents = run.rawEvents ++
      [{ outcomeBody format result.1 result.2 with sequenceNo := run.sequenceNo }] := by
  obtain ⟨agent, outcome⟩ := result
  cases outcome <;> rfl

theorem Live.record {snapshot : MarketState} {result : Agent × Outcome}
    (h : Live format sha256 inputs before s state)
    (hends : Ends Fair s (inputs.record format sha256 snapshot state result) s' (.ok state')) :
    state'.1 = state.1.record format snapshot result ∧ Live format sha256 inputs before s' state' := by
  obtain ⟨middle, clock, hemit, hends⟩ := ends_bind_ok hends
  obtain ⟨rfl, hstate⟩ := ends_pure.mp hends
  obtain rfl := Except.ok.inj hstate
  exact ⟨rfl, h.emit (record_rawEvents _ _ _) hemit⟩

/-- **One snapshot** fed: the run takes it, and one outcome of each agent. -/
theorem Live.feed {snapshot : MarketState} (h : Live format sha256 inputs before s state)
    (hends : Ends Fair s (inputs.feed format sha256 state snapshot) s' (.ok state')) :
    ∃ outcomes, state'.1 = (inputs.gathered outcomes).foldl (CompetitionRun.record format snapshot)
        (state.1.tick format snapshot) ∧ Live format sha256 inputs before s' state' := by
  obtain ⟨s₁, ticked, htick, hasked⟩ := ends_bind_ok hends
  obtain ⟨htaken, hlive⟩ := h.tick htick
  obtain ⟨s₂, reply, hreply, hrecords⟩ := ends_bind_ok hasked
  obtain rfl := (ends_request hreply).1
  have hall := Ends.foldlM (fun s state rest => ∃ done,
      done ++ rest = inputs.gathered reply.outcomes ∧
      state.1 = done.foldl (CompetitionRun.record format snapshot) ticked.1 ∧
      Live format sha256 inputs before s state)
    (by
      rintro s state result rest s' state' ⟨done, hdone, hrun, hlive⟩ hround
      obtain ⟨hrecorded, hlive⟩ := hlive.record hround
      refine ⟨done ++ [result], by rw [List.append_assoc]; exact hdone, ?_, hlive⟩
      rw [hrecorded, hrun, List.foldl_append]
      rfl) ⟨[], rfl, rfl, hlive⟩ hrecords
  obtain ⟨done, hdone, hrun, hlive⟩ := hall
  rw [List.append_nil] at hdone
  subst hdone
  exact ⟨reply.outcomes, by rw [hrun, htaken], hlive⟩

/-! ## The sealed run -/

/-- What a start seals: its snapshots fed in order, each with one outcome of each agent. -/
def Seals (format : Json.FloatFormat PyFloat) (sha256 : List Char → String) (inputs : StartInputs)
    (sourceMode : SourceMode) (runResult : RunResult) : Prop :=
  ∃ calls run, calls.map Call.snapshot = inputs.marketstates ∧
    (∀ call ∈ calls, call.Gathers inputs.agents) ∧
    (CompetitionRun.start inputs.agents sourceMode inputs.runId true).calls format calls = .ok run ∧
    (run.finalize format sha256 none (.ok ())).1 = .ok runResult

theorem gathered_fst (outcomes : ℕ → Outcome) :
    (inputs.gathered outcomes).map Prod.fst = inputs.agents := by
  rw [gathered]
  apply List.ext_getElem
  · simp
  · intro i _ _
    simp

/-- What is sealed, and that every event of it was emitted. -/
structure SealedRun (format : Json.FloatFormat PyFloat) (sha256 : List Char → String)
    (inputs : StartInputs) (sourceMode : SourceMode) (runResult : RunResult) : Prop where
  seals : Seals format sha256 inputs sourceMode runResult
  runId : runResult.runId = inputs.runId
  mode : runResult.sourceMode = sourceMode
  agentIds : runResult.agentIds = inputs.agents.map (·.agentId)
  numbered : runResult.runEvents.map (·.sequenceNo) =
    (List.range runResult.runEvents.length).map (Nat.cast : ℕ → ℤ)

/-- A run that is not sealed yet, and has no window, is sealed to its result. -/
theorem finalize_of_result {run : CompetitionRun} {runResult : RunResult}
    (hopen : run.finalized = false) (hresult : run.result format sha256 none = .ok runResult) :
    (run.finalize format sha256 none (.ok ())).1 = .ok runResult := by
  rw [CompetitionRun.finalize, if_neg (by simp [hopen])]
  simp only [Option.map_none, CompetitionRun.sealWindow, hresult]

theorem sealedRun_of_calls {sourceMode : SourceMode} {calls : List Runtime.Call} {run : CompetitionRun}
    {runResult : RunResult} (hsnapshots : calls.map Call.snapshot = inputs.marketstates)
    (hgathers : ∀ call ∈ calls, call.Gathers inputs.agents)
    (hcalls : (CompetitionRun.start inputs.agents sourceMode inputs.runId true).calls format calls =
      .ok run) (hresult : run.result format sha256 none = .ok runResult) :
    SealedRun format sha256 inputs sourceMode runResult := by
  have hopen : run.finalized = false := calls_finalized rfl hcalls
  have hconsistent := (CompetitionRun.Consistent.start _ _ _ _).calls hcalls
  obtain ⟨-, -, -, hsetup⟩ := Checks.calls_emitted hcalls
  obtain ⟨evidenceHash, hhash, hparts⟩ := bind_eq_ok.mp hresult
  obtain ⟨rows, hrows, hparts⟩ := bind_eq_ok.mp hparts
  obtain rfl := Except.ok.inj hparts
  refine ⟨⟨calls, run, hsnapshots, hgathers, hcalls, finalize_of_result hopen hresult⟩, hsetup.runId,
    hsetup.sourceMode, ?_, hconsistent.numbered⟩
  rw [hsetup.agents]
  rfl

/-- **The run of a start**: what it seals is stored, and the sink has appended its evidence. -/
theorem ends_runCompetition {sourceMode : SourceMode} {runResult : RunResult}
    (h : Ends Fair s (inputs.runCompetition format sha256 sourceMode) s' (.ok runResult)) :
    SealedRun format sha256 inputs sourceMode runResult ∧ s'.runs inputs.runId = some runResult ∧
      ∃ evidence, s'.competitionEvents inputs.competitionId =
        s.competitionEvents inputs.competitionId ++ evidence ∧
        evidenceEvents format sha256 inputs.competitionId inputs.runId inputs.baseTs
          runResult.runEvents = .ok evidence := by
  obtain ⟨s₁, fed, hfed, hsealed⟩ := ends_bind_ok h
  have hall := Ends.foldlM (fun s' state rest => ∃ calls,
      calls.map Call.snapshot ++ rest = inputs.marketstates ∧
      (∀ call ∈ calls, call.Gathers inputs.agents) ∧
      (CompetitionRun.start inputs.agents sourceMode inputs.runId true).calls format calls =
        .ok state.1 ∧ Live format sha256 inputs s s' state)
    (by
      rintro s state snapshot rest s' state' ⟨calls, hsnapshots, hgathers, hcalls, hlive⟩ hround
      obtain ⟨outcomes, hrun, hlive⟩ := hlive.feed hround
      refine ⟨calls ++ [.feed snapshot (inputs.gathered outcomes)], ?_, ?_, ?_, hlive⟩
      · rw [List.map_append, List.append_assoc]
        exact hsnapshots
      · intro call hcall
        rcases List.mem_append.mp hcall with hcall | hcall
        · exact hgathers call hcall
        · rw [List.mem_singleton.mp hcall]
          exact gathered_fst outcomes
      · rw [calls_append, hcalls]
        refine bind_eq_ok.mpr ⟨state.1, rfl, bind_eq_ok.mpr ⟨state'.1, ?_, rfl⟩⟩
        rw [CompetitionRun.call, CompetitionRun.feed, if_neg (by simp [calls_finalized rfl hcalls]),
          hrun])
    ⟨[], rfl, fun _ h => absurd h List.not_mem_nil, rfl, ⟨⟨[], ⟨(List.append_nil _).symm, rfl⟩, rfl⟩,
      rfl⟩⟩ hfed
  obtain ⟨calls, hsnapshots, hgathers, hcalls, hlive⟩ := hall
  rw [List.append_nil] at hsnapshots
  obtain ⟨s₂, result, hpure, hpersisted⟩ := ends_bind_ok hsealed
  obtain ⟨rfl, hresult⟩ := ends_ofPure.mp hpure
  obtain ⟨s₃, _, hpersist, hreturned⟩ := ends_bind_ok hpersisted
  obtain ⟨rfl, hok⟩ := ends_pure.mp hreturned
  obtain rfl := Except.ok.inj hok
  have hrun := sealedRun_of_calls hsnapshots hgathers hcalls hresult
  obtain ⟨evidence, happended, hevidence⟩ := hlive.appended
  obtain ⟨rfl, -⟩ | ⟨e, -, -, he⟩ := ends_perform hpersist
  · refine ⟨hrun, ?_, evidence, happended.events, ?_⟩
    · rw [← hrun.runId]
      exact Function.update_self ..
    · rw [result_ok hresult]
      exact hevidence
  · cases he

/-! ## The lane -/

theorem ends_ofLaneAwait {competitionId : String} {question : Await} {outcome : Except Store.Raised Answer}
    (h : Ends Fair s (ofLaneAwait question) s' outcome) : Untouched competitionId s s' := by
  have houtside : ∀ {α : Type} {name : Outside} {f : Reply → Request α} {outcome : Except Store.Raised α},
      (∀ reply s s' outcome, Ends Fair s (f reply) s' outcome → s' = s) →
      Ends Fair s (Task.request (.outside name) >>= f) s' outcome → Untouched competitionId s s' := by
    intro α name f outcome hf h
    obtain ⟨middle, reply, hreply, hrest⟩ | ⟨e, hfail, -⟩ := ends_bind h
    · obtain rfl := (ends_request hreply).1
      obtain rfl := hf _ _ _ _ hrest
      exact ⟨rfl, rfl⟩
    · obtain rfl := (ends_request hfail).1
      exact ⟨rfl, rfl⟩
  cases question with
  | appendExecutionRecord record =>
    obtain ⟨middle, u, hstored, hrest⟩ | ⟨e, hstored, -⟩ := ends_bind h
    · obtain ⟨rfl, -⟩ := ends_pure.mp hrest
      obtain ⟨rfl, -⟩ | ⟨e, -, rfl, -⟩ := ends_perform hstored <;> exact ⟨rfl, rfl⟩
    · obtain ⟨rfl, -⟩ | ⟨e, -, rfl, -⟩ := ends_perform hstored <;> exact ⟨rfl, rfl⟩
  | quoteMarket _ _ | submitOrder _ | getOrderStatus _ | sleep | normalizeReceipt _ _ _ _
  | broadcast _ => exact houtside (fun _ _ _ _ h => (ends_pure.mp h).1) h

/-- **The lane** leaves the log alone, and what it returns was heard of it. -/
theorem ends_ofLane (competitionId : String) {α : Type} {shell : Shell α} {a : α}
    (h : Ends Fair s (ofLane shell) s' (.ok a)) : Untouched competitionId s s' ∧
      ∃ log, Dialogue.Heard shell log (.done (.ok a)) :=
  Ends.interpret (Untouched competitionId)
    (fun _ _ _ _ _ hleaves hanswer => hleaves.trans (ends_ofLaneAwait hanswer)) .nil ⟨rfl, rfl⟩ h

variable {policyHash : PolicyEnvelope → String} {competition : Competition} {runResult : RunResult}

/-- **The execution block** appends a block of derived events. -/
theorem ends_runExecutionBlock (hid : competition.competitionId = inputs.competitionId)
    {baseSeq : ℤ} {u : Unit}
    (h : Ends Fair s (inputs.runExecutionBlock format sha256 policyHash competition runResult baseSeq)
      s' (.ok u)) :
    ∃ more, Appended inputs.competitionId more s s' ∧ Block baseSeq more := by
  have hlane : ∀ {s : InMemoryStore} {laneSeq : ℤ} {route},
      Ends Fair s (do
        let events ← ofLane ((inputs.lane competition runResult laneSeq route).runExecutionLane format
          sha256 policyHash)
        appendCompetitionEvents competition.competitionId events
        if inputs.broadcast then safeBroadcastAll events) s' (.ok u) →
      ∃ more, Appended inputs.competitionId more s s' ∧ Block laneSeq more := by
    intro s laneSeq route h
    obtain ⟨s₁, events, hevents, hrest⟩ := ends_bind_ok h
    obtain ⟨huntouched, log, hheard⟩ := ends_ofLane inputs.competitionId hevents
    obtain ⟨s₂, _, happend, hsent⟩ := ends_bind_ok hrest
    obtain ⟨hstored, -⟩ := ends_append_ok happend
    obtain rfl : s' = s₂ := by
      split_ifs at hsent
      · exact ends_safeBroadcastAll hsent
      · exact (ends_pure.mp hsent).1
    rw [hid] at hstored
    refine ⟨events, ⟨?_, hstored.runs.trans huntouched.runs⟩, ?_⟩
    · rw [hstored.events, huntouched.events]
    · exact Dialogue.Wp.returned runExecutionLane_block hheard
  unfold runExecutionBlock at h
  dsimp only at h
  by_cases hdegraded : competition.config.executionMode = .liveGuarded ∧
      (selectExecutionRoute competition.config.executionMode (envelopeOf competition)
        inputs.liveDeps).2.1 ≠ .liveGuarded
  · rw [if_pos hdegraded] at h
    obtain ⟨s₁, _, happend, hsent⟩ := ends_bind_ok h
    obtain ⟨hstored, -⟩ := ends_append_ok happend
    obtain ⟨more, hmore, hblock⟩ := hlane (ends_broadcastIf_ok ends_safeBroadcast hsent)
    rw [hid] at hstored
    have hevents := hmore.events
    rw [hstored.events, List.append_assoc] at hevents
    exact ⟨_, ⟨hevents, hmore.runs.trans hstored.runs⟩, hblock.cons rfl derivedEvent_isDerived⟩
  · rw [if_neg hdegraded] at h
    exact hlane h

/-! ## Parity -/

theorem firstDivergence_eq_none : ∀ {persisted projection : List CompetitionEvent},
    persisted.length = projection.length →
      (firstDivergence persisted projection = none ↔ persisted = projection)
  | [], [], _ => by simp [firstDivergence]
  | [], _ :: _, h => nomatch h
  | _ :: _, [], h => nomatch h
  | live :: persisted, projected :: projection, h => by
    rw [firstDivergence]
    split_ifs with hsame
    · rw [firstDivergence_eq_none (Nat.succ.inj h), hsame, List.cons.injEq]
      exact ⟨fun h => ⟨rfl, h⟩, fun h => h.2⟩
    · exact ⟨fun h => (nomatch h), fun h => absurd (List.cons.inj h).1 hsame⟩

/-- **Parity** passes exactly where the two are equal. -/
theorem ends_assertPrefixParity {persisted projection : List CompetitionEvent}
    {outcome : Except Store.Raised Unit}
    (h : Ends Fair s (assertPrefixParity persisted projection) s' outcome) :
    s' = s ∧ (outcome = .ok () ↔ persisted = projection) := by
  unfold assertPrefixParity at h
  dsimp only at h
  by_cases hlength : persisted.length = projection.length
  · rw [if_neg (not_not.mpr hlength)] at h
    cases hfirst : firstDivergence persisted projection with
    | none =>
      rw [hfirst] at h
      obtain ⟨rfl, rfl⟩ := ends_pure.mp h
      exact ⟨rfl, iff_of_true rfl ((firstDivergence_eq_none hlength).mp hfirst)⟩
    | some seq =>
      rw [hfirst] at h
      obtain ⟨rfl, rfl⟩ := ends_raise.mp h
      refine ⟨rfl, iff_of_false nofun fun hsame => ?_⟩
      rw [(firstDivergence_eq_none hlength).mpr hsame] at hfirst
      exact nomatch hfirst
  · rw [if_pos hlength] at h
    obtain ⟨rfl, rfl⟩ := ends_raise.mp h
    exact ⟨rfl, iff_of_false nofun fun hsame => hlength (congrArg List.length hsame)⟩

/-! ## The conclusion -/

theorem lastSeq_of_numbered {log : List CompetitionEvent}
    (h : log.map (·.seq) = (List.range log.length).map (Nat.cast : ℕ → ℤ)) (hne : log ≠ []) :
    lastSeq log + 1 = log.length := by
  have hpos : 0 < log.length := List.length_pos_iff.mpr hne
  have hmax : ((List.range log.length).map (Nat.cast : ℕ → ℤ)).max? =
      some ((log.length - 1 : ℕ) : ℤ) := by
    rw [List.max?_eq_some_iff]
    refine ⟨List.mem_map_of_mem (List.mem_range.mpr (by omega)), ?_⟩
    intro b hb
    obtain ⟨i, hi, rfl⟩ := List.mem_map.mp hb
    rw [List.mem_range] at hi
    omega
  rw [lastSeq, h, hmax, Option.getD_some]
  omega

/-- What a start returns with: the log that can be read is the projection of the run that was sealed,
with a block of derived events behind it. -/
structure Projected (format : Json.FloatFormat PyFloat) (sha256 : List Char → String)
    (inputs : StartInputs) (runResult : RunResult) (store : InMemoryStore) : Prop where
  log : ∃ projection more,
    buildEventLog format sha256 runResult
      { competitionId := inputs.competitionId, eventTs := inputs.baseTs } = .ok projection ∧
    visible store inputs.competitionId = projection ++ more ∧
    LogOf format sha256 runResult.runEvents (projection ++ more) ∧
    ∀ event ∈ more, IsDerived event

theorem Projected.untouched (h : Projected format sha256 inputs runResult s)
    (huntouched : Untouched inputs.competitionId s s') :
    Projected format sha256 inputs runResult s' := by
  obtain ⟨projection, more, hbuilt, hvisible, hshape, hmore⟩ := h.log
  refine ⟨projection, more, hbuilt, ?_, hshape, hmore⟩
  rw [visible, huntouched.events]
  exact hvisible

/-- The handler of the execution block returns nothing. -/
theorem ends_block_ok {baseSeq : ℤ} {u : Unit}
    (h : Ends Fair s (catchingException
      (inputs.runExecutionBlock format sha256 policyHash competition runResult baseSeq) fun e => do
        updateCompetitionStatus inputs.competitionId .finalized
        .raise e) s' (.ok u)) :
    Ends Fair s (inputs.runExecutionBlock format sha256 policyHash competition runResult baseSeq) s'
      (.ok u) := by
  obtain ⟨u', hblock, -⟩ | ⟨middle, e, -, hhandler⟩ := ends_catching h
  · exact hblock
  · split_ifs at hhandler
    · obtain ⟨middle', _, -, hraise⟩ := ends_bind_ok hhandler
      exact nomatch (ends_raise.mp hraise).2
    · exact nomatch (ends_raise.mp hhandler).2

/-- **The end of a start**: where the parity passes, what is read is the projection. -/
theorem ends_conclude (hid : competition.competitionId = inputs.competitionId)
    {returned : Competition} {sourceMode : SourceMode}
    (hrun : SealedRun format sha256 inputs sourceMode runResult)
    (h : Ends Fair s (inputs.conclude format sha256 policyHash competition runResult) s'
      (.ok returned)) :
    s'.runs = s.runs ∧ Projected format sha256 inputs runResult s' := by
  obtain ⟨s₁, fullLog, hpure, hlisted⟩ := ends_bind_ok h
  obtain ⟨rfl, hbuilt⟩ := ends_ofPure.mp hpure
  obtain ⟨hshape, hlong⟩ := buildEventLog_shape hrun.numbered hbuilt
  obtain ⟨s₂, persisted, hlist, hchecked⟩ := ends_bind_ok hlisted
  obtain ⟨rfl, hread⟩ : s₂ = s₁ ∧ persisted = visible s₁ inputs.competitionId := by
    obtain ⟨rfl, hread⟩ | ⟨e, -, -, he⟩ := ends_perform hlist
    · exact ⟨rfl, Except.ok.inj hread⟩
    · exact nomatch he
  obtain ⟨s₃, _, hparity, happended⟩ := ends_bind_ok hchecked
  obtain ⟨rfl, hsame⟩ := ends_assertPrefixParity hparity
  have hprefix : visible s₃ inputs.competitionId = fullLog.take (runResult.runEvents.length + 1) := by
    rw [← hread, hsame.mp rfl, filter_upTo hshape.numbered]
  obtain ⟨s₄, _, happend, hrest⟩ := ends_bind_ok happended
  obtain ⟨hstored, -⟩ := ends_append_ok happend
  rw [filter_after hshape.numbered] at hstored
  have htail : (fullLog.take (runResult.runEvents.length + 1)) ++
      fullLog.drop ((runResult.runEvents.length : ℤ) + 1).toNat = fullLog :=
    List.take_append_drop (runResult.runEvents.length + 1) fullLog
  have hvisible : visible s₄ inputs.competitionId = fullLog := by
    rw [visible_append hprefix hstored.events (by rw [htail]; exact hshape.numbered), htail]
  have hprojected : Projected format sha256 inputs runResult s₄ :=
    ⟨fullLog, [], hbuilt, by rw [List.append_nil]; exact hvisible,
      by rw [List.append_nil]; exact hshape, fun _ h => absurd h List.not_mem_nil⟩
  have hfinish : ∀ {s : InMemoryStore}, Ends Fair s (do
        updateCompetitionStatus inputs.competitionId .finalized
        getCompetition inputs.competitionId) s' (.ok returned) →
      Untouched inputs.competitionId s s' := by
    intro s h
    obtain ⟨s₅, _, hstatus, hget⟩ := ends_bind_ok h
    obtain rfl := ends_getCompetition hget
    exact ends_updateStatus hstatus
  by_cases hpaper : competition.config.executionMode = .paper
  · rw [if_neg (not_not.mpr hpaper)] at hrest
    have hend := hfinish hrest
    exact ⟨hend.runs.trans hstored.runs, hprojected.untouched hend⟩
  · rw [if_pos hpaper] at hrest
    obtain ⟨s₅, _, hcaught, hlast⟩ := ends_bind_ok hrest
    obtain ⟨more, hmore, hblock⟩ := ends_runExecutionBlock hid (ends_block_ok hcaught)
    have hend := hfinish hlast
    have hnumbers : more.map (·.seq) =
        (List.range more.length).map fun i : ℕ => (fullLog.length : ℤ) + i := by
      rw [hblock.numbered, lastSeq_of_numbered hshape.numbered (by rintro rfl; simp at hlong)]
    have hshape' := hshape.append hlong hnumbers hblock.derived
    refine ⟨hend.runs.trans (hmore.runs.trans hstored.runs), Projected.untouched ⟨fullLog, more,
      hbuilt, visible_append hvisible hmore.events hshape'.numbered, hshape', hblock.derived⟩ hend⟩

/-- **A start that returns** has stored the run it sealed, and its log is the projection. -/
theorem ends_run (hid : competition.competitionId = inputs.competitionId) {returned : Competition}
    (h : Ends Fair s (inputs.run format sha256 policyHash competition) s' (.ok returned)) :
    ∃ runResult, Seals format sha256 inputs competition.config.sourceMode runResult ∧
      s'.runs inputs.runId = some runResult ∧ Projected format sha256 inputs runResult s' := by
  unfold run at h
  split_ifs at h
  · exact nomatch (ends_raise.mp h).2
  · exact nomatch (ends_raise.mp h).2
  · obtain ⟨s₁, _, -, hnamed⟩ := ends_bind_ok h
    obtain ⟨s₂, _, -, hopened⟩ := ends_bind_ok hnamed
    obtain ⟨s₃, _, -, hran⟩ := ends_bind_ok hopened
    obtain ⟨s₄, runResult, hrun, hconcluded⟩ := ends_bind_ok hran
    obtain ⟨hsealed, hstored, -⟩ := ends_runCompetition hrun
    obtain ⟨hruns, hprojected⟩ := ends_conclude hid hsealed hconcluded
    exact ⟨runResult, hsealed.seals, by rw [hruns, hstored], hprojected⟩

/-! ## Where the parity fails -/

/-- An error that is not of the parity. -/
def Unlike (e : Store.Raised) : Prop := ∀ msg, e ≠ .integrity msg

theorem raises_withCompetition {call : Call Outside} {id : String} {α : Type}
    {body : Competition → Except Store.Raised (α × Competition)}
    (hbody : ∀ competition e, body competition = .error e → Unlike e) :
    Raises Unlike (Task.perform call (InMemoryStore.withCompetition id body) : Request α) := by
  refine raises_perform fun s e h => ?_
  unfold InMemoryStore.withCompetition at h
  split at h
  · obtain rfl := Except.error.inj h
    exact nofun
  · split at h
    · rename_i e' hbody'
      obtain rfl := Except.error.inj h
      exact hbody _ _ hbody'
    · exact nomatch h

theorem raises_updateStatus {id : String} {status : CompetitionStatus} :
    Raises Unlike (updateCompetitionStatus id status : Request Unit) :=
  raises_withCompetition fun _ _ h => nomatch h

theorem raises_updateRunId {id runId : String} :
    Raises Unlike (updateCompetitionRunId id runId : Request Unit) :=
  raises_withCompetition fun _ _ h => nomatch h

theorem raises_listEvents {id : String} {sinceSeq : ℤ} :
    Raises Unlike (listCompetitionEvents id sinceSeq : Request (List CompetitionEvent)) :=
  raises_perform fun _ _ h => nomatch h

theorem raises_getCompetition {id : String} :
    Raises Unlike (getCompetition id : Request Competition) := by
  refine raises_perform fun s e h => ?_
  unfold InMemoryStore.getCompetition at h
  split at h
  · obtain rfl := Except.error.inj h
    exact nofun
  · exact nomatch h

theorem raises_append {id : String} {events : List CompetitionEvent} :
    Raises Unlike (appendCompetitionEvents id events : Request Unit) := by
  refine raises_perform fun s e h => ?_
  unfold InMemoryStore.appendCompetitionEvents at h
  dsimp only at h
  split at h
  · obtain rfl := Except.error.inj h
    exact nofun
  · exact nomatch h

theorem raises_ofPure {α : Type} (x : Except PyExc α) : Raises Unlike (ofPure x) := by
  cases x with
  | ok a => exact raises_pure
  | error e => exact raises_raise nofun

theorem raises_safeBroadcast (event : CompetitionEvent) : Raises Unlike (safeBroadcast event) := by
  refine raises_catching (raises_bind raises_request fun _ => raises_pure) fun e he => ?_
  split_ifs
  · exact raises_pure
  · exact raises_raise he

theorem raises_safeBroadcastAll : ∀ events : List CompetitionEvent,
    Raises Unlike (safeBroadcastAll events)
  | [] => raises_pure
  | event :: events => raises_bind (raises_safeBroadcast event) fun _ => raises_safeBroadcastAll events

theorem raises_sink (currentTickTs : ℤ) (runEvent : RunEvent) :
    Raises Unlike (inputs.sink format sha256 currentTickTs runEvent) := by
  refine raises_bind (raises_ofPure _) fun built => raises_bind raises_append fun _ => ?_
  dsimp only
  split_ifs
  · exact raises_bind (raises_safeBroadcast _) fun _ => raises_pure
  · exact raises_pure

theorem raises_feed (state : CompetitionRun × ℤ) (snapshot : MarketState) :
    Raises Unlike (inputs.feed format sha256 state snapshot) := by
  refine raises_bind (raises_bind (raises_sink _ _) fun _ => raises_pure) fun state => ?_
  refine raises_bind raises_request fun reply => ?_
  exact raises_foldlM (fun _ _ => raises_bind (raises_sink _ _) fun _ => raises_pure) _ _

theorem raises_runCompetition (sourceMode : SourceMode) :
    Raises Unlike (inputs.runCompetition format sha256 sourceMode) := by
  refine raises_bind (raises_foldlM raises_feed _ _) fun state => ?_
  refine raises_bind (raises_ofPure _) fun runResult => ?_
  exact raises_bind (raises_perform fun _ _ h => nomatch h) fun _ => raises_pure

theorem raises_ofLane {α : Type} (shell : Shell α) : Raises Unlike (ofLane shell) := by
  refine raises_interpret (fun e => nofun) (fun question => ?_) shell
  cases question with
  | appendExecutionRecord record =>
    exact raises_bind (raises_perform fun _ _ h => nomatch h) fun _ => raises_pure
  | quoteMarket _ _ | submitOrder _ | getOrderStatus _ | sleep | normalizeReceipt _ _ _ _
  | broadcast _ => exact raises_bind raises_request fun _ => raises_pure

theorem raises_runExecutionBlock (baseSeq : ℤ) : Raises Unlike
    (inputs.runExecutionBlock format sha256 policyHash competition runResult baseSeq) := by
  have hlane : ∀ laneSeq route, Raises Unlike (do
      let events ← ofLane ((inputs.lane competition runResult laneSeq route).runExecutionLane format
        sha256 policyHash)
      appendCompetitionEvents competition.competitionId events
      if inputs.broadcast then safeBroadcastAll events) := by
    intro laneSeq route
    refine raises_bind (raises_ofLane _) fun events => raises_bind raises_append fun _ => ?_
    split_ifs
    · exact raises_safeBroadcastAll events
    · exact raises_pure
  unfold runExecutionBlock
  dsimp only
  by_cases hdegraded : competition.config.executionMode = .liveGuarded ∧
      (selectExecutionRoute competition.config.executionMode (envelopeOf competition)
        inputs.liveDeps).2.1 ≠ .liveGuarded
  · rw [if_pos hdegraded]
    refine raises_bind raises_append fun _ => ?_
    by_cases hbroadcast : inputs.broadcast = true
    · rw [if_pos hbroadcast]
      exact raises_bind (raises_safeBroadcast _) fun _ => raises_bind raises_pure fun _ => hlane _ _
    · rw [if_neg hbroadcast]
      exact raises_bind raises_pure fun _ => hlane _ _
  · rw [if_neg hdegraded]
    exact raises_bind raises_pure fun _ => hlane _ _

/-- The start and the live evidence are the first of what is projected. -/
theorem started_evidence_eq_take {evidence projection : List CompetitionEvent}
    {sourceMode : SourceMode} (hrun : SealedRun format sha256 inputs sourceMode runResult)
    (hevidence : evidenceEvents format sha256 inputs.competitionId inputs.runId inputs.baseTs
      runResult.runEvents = .ok evidence)
    (hbuilt : buildEventLog format sha256 runResult
      { competitionId := inputs.competitionId, eventTs := inputs.baseTs } = .ok projection) :
    inputs.startedEvent format sha256 sourceMode :: evidence =
      projection.take (runResult.runEvents.length + 1) := by
  obtain ⟨evidence', tail, hevidence', -, rfl⟩ := buildEventLog_parts hrun.numbered hbuilt
  rw [hrun.runId] at hevidence'
  obtain rfl := Except.ok.inj (hevidence.symm.trans hevidence')
  have hstarted : buildCompetitionStartedEvent format sha256 inputs.competitionId runResult.runId
      runResult.sourceMode runResult.agentIds inputs.baseTs =
      inputs.startedEvent format sha256 sourceMode := by
    rw [hrun.runId, hrun.mode, hrun.agentIds]
    rfl
  rw [hstarted, List.take_left' (by rw [List.length_cons, (evidenceEvents_binds hevidence).length_eq])]

/-- Where nothing could be read before them, they are what can be read. -/
theorem visible_live {before after : InMemoryStore} {evidence projection : List CompetitionEvent}
    {sourceMode : SourceMode} (hrun : SealedRun format sha256 inputs sourceMode runResult)
    (hempty : visible before inputs.competitionId = [])
    (hafter : after.competitionEvents inputs.competitionId =
      before.competitionEvents inputs.competitionId ++ [inputs.startedEvent format sha256 sourceMode] ++
        evidence)
    (hevidence : evidenceEvents format sha256 inputs.competitionId inputs.runId inputs.baseTs
      runResult.runEvents = .ok evidence)
    (hbuilt : buildEventLog format sha256 runResult
      { competitionId := inputs.competitionId, eventTs := inputs.baseTs } = .ok projection) :
    visible after inputs.competitionId = projection.take (runResult.runEvents.length + 1) := by
  rw [← started_evidence_eq_take hrun hevidence hbuilt]
  have hshape := logOf_evidence (inputs.startedEvent format sha256 sourceMode) hrun.numbered
    derivedEvent_isDerived rfl (evidenceEvents_binds hevidence)
  have happended : after.competitionEvents inputs.competitionId =
      before.competitionEvents inputs.competitionId ++
        inputs.startedEvent format sha256 sourceMode :: evidence := by
    rw [hafter, List.append_assoc]
    rfl
  exact visible_append hempty happended hshape.numbered

/-- **The parity fails** only where the log was begun without its start. -/
theorem ends_run_integrity (hfair : ∀ call e, Fair (.failed call e) → Unlike e) {msg : String}
    (h : Ends Fair s (inputs.run format sha256 policyHash competition) s' (.error (.integrity msg))) :
    visible s inputs.competitionId ≠ [] ∧
      ∀ event ∈ s.competitionEvents inputs.competitionId, event.seq ≠ 0 := by
  have hunlike : ∀ {α : Type} {t : Request α} {s s' : InMemoryStore} {e : Store.Raised},
      Raises Unlike t → Ends Fair s t s' (.error e) →
      Except.error (.integrity msg) = (.error e : Except Store.Raised Competition) → False := by
    intro α t s s' e hraises hends he
    exact hends.raises hfair hraises msg (Except.error.inj he).symm
  unfold run at h
  split_ifs at h
  · exact nomatch (ends_raise.mp h).2
  · exact nomatch (ends_raise.mp h).2
  · obtain ⟨s₁, _, hstatus, hnamed⟩ | ⟨e, he, h⟩ := ends_bind h
    swap
    · exact (hunlike raises_updateStatus he h).elim
    obtain ⟨s₂, _, hrunId, hopened⟩ | ⟨e, he, h⟩ := ends_bind hnamed
    swap
    · exact (hunlike raises_updateRunId he h).elim
    obtain ⟨s₃, _, hstarted, hran⟩ | ⟨e, he, h⟩ := ends_bind hopened
    swap
    · exact (hunlike raises_append he h).elim
    obtain ⟨s₄, runResult, hrun, hconcluded⟩ | ⟨e, he, h⟩ := ends_bind hran
    swap
    · exact (hunlike (raises_runCompetition _) he h).elim
    have hbefore : Untouched inputs.competitionId s s₂ :=
      (ends_updateStatus hstatus).trans (ends_updateRunId hrunId)
    obtain ⟨hopen, hfree⟩ := ends_append_ok hstarted
    have hno : ∀ event ∈ s.competitionEvents inputs.competitionId, event.seq ≠ 0 := by
      intro event hevent hzero
      refine hfree _ List.mem_cons_self ?_
      rw [hbefore.events]
      exact List.mem_map.mpr ⟨event, hevent, hzero⟩
    refine ⟨fun hempty => ?_, hno⟩
    obtain ⟨hsealed, -, evidence, hevents, hevidence⟩ := ends_runCompetition hrun
    rw [hopen.events, hbefore.events] at hevents
    obtain ⟨s₅, fullLog, hpure, hlisted⟩ | ⟨e, he, h⟩ := ends_bind hconcluded
    swap
    · exact hunlike (raises_ofPure _) he h
    obtain ⟨rfl, hbuilt⟩ := ends_ofPure.mp hpure
    obtain ⟨s₆, persisted, hlist, hchecked⟩ | ⟨e, he, h⟩ := ends_bind hlisted
    swap
    · exact hunlike raises_listEvents he h
    obtain ⟨rfl, hread⟩ : s₆ = s₅ ∧ persisted = visible s₅ inputs.competitionId := by
      obtain ⟨rfl, hread⟩ | ⟨e, -, -, he⟩ := ends_perform hlist
      · exact ⟨rfl, Except.ok.inj hread⟩
      · exact nomatch he
    have hsame : persisted = fullLog.filter fun event =>
        event.seq ≤ (runResult.runEvents.length : ℤ) := by
      rw [hread, filter_upTo (buildEventLog_shape hsealed.numbered hbuilt).1.numbered]
      exact visible_live hsealed hempty hevents hevidence hbuilt
    obtain ⟨s₇, _, hparity, happended⟩ | ⟨e, hparity, h⟩ := ends_bind hchecked
    swap
    · exact nomatch (ends_assertPrefixParity hparity).2.mpr hsame
    obtain ⟨s₈, _, -, hrest⟩ | ⟨e, he, h⟩ := ends_bind happended
    swap
    · exact hunlike raises_append he h
    have hraises : Raises Unlike (do
        updateCompetitionStatus inputs.competitionId .finalized
        getCompetition inputs.competitionId : Request Competition) :=
      raises_bind raises_updateStatus fun _ => raises_getCompetition
    by_cases hpaper : competition.config.executionMode = .paper
    · rw [if_neg (not_not.mpr hpaper)] at hrest
      exact hunlike hraises hrest rfl
    · rw [if_pos hpaper] at hrest
      refine hunlike (raises_bind (raises_catching (raises_runExecutionBlock _) fun e he => ?_)
        fun _ => hraises) hrest rfl
      split_ifs
      · exact raises_bind raises_updateStatus fun _ => raises_raise he
      · exact raises_raise he

end Live

end StartInputs

/-! ## The law of the log -/

/-- Every competition is stored under its own id. -/
def OwnIds (store : InMemoryStore) : Prop := ∀ competitionId competition,
  store.competitions competitionId = some competition → competition.competitionId = competitionId

section Law

variable {format : Json.FloatFormat PyFloat} {sha256 : List Char → String}
  {policyHash : PolicyEnvelope → String} {inputs : StartInputs} {store store' : InMemoryStore}
  {marks : List (Mark (Call Outside) Reply Store.Raised)}

theorem startCompetition_returns (hown : OwnIds store) {returned : Competition}
    (h : Steps store (inputs.startCompetition format sha256 policyHash) marks store'
      (.done (.ok returned))) :
    ∃ sourceMode runResult, StartInputs.Seals format sha256 inputs sourceMode runResult ∧
      store'.runs inputs.runId = some runResult ∧
      StartInputs.Projected format sha256 inputs runResult store' := by
  have hends : Ends (fun _ => True) store _ store' _ := ends_of_steps h (fun _ _ => trivial) rfl
  obtain ⟨s₁, competition, hget, hrun⟩ := ends_bind_ok hends
  obtain ⟨hread, hsame⟩ | ⟨e, -, -, he⟩ := ends_perform hget
  · rw [InMemoryStore.getCompetition_reads] at hread
    subst hread
    have hid : competition.competitionId = inputs.competitionId := by
      unfold InMemoryStore.getCompetition at hsame
      split at hsame
      · exact nomatch hsame
      · rename_i found hfound
        obtain rfl := Except.ok.inj hsame
        exact hown _ _ hfound
    exact ⟨_, StartInputs.ends_run hid hrun⟩
  · exact nomatch he

theorem startCompetition_integrity {msg : String}
    (h : Steps store (inputs.startCompetition format sha256 policyHash) marks store'
      (.done (.error (.integrity msg))))
    (hfair : ∀ call e, Mark.failed call e ∈ marks → StartInputs.Unlike e) :
    visible store inputs.competitionId ≠ [] ∧
      ∀ event ∈ store.competitionEvents inputs.competitionId, event.seq ≠ 0 := by
  have hends : Ends (· ∈ marks) store _ store' _ := ends_of_steps h (fun _ hmark => hmark) rfl
  obtain ⟨s₁, competition, hget, hrun⟩ | ⟨e, hget, he⟩ := ends_bind hends
  · obtain rfl := ends_getCompetition hget
    exact StartInputs.ends_run_integrity hfair hrun
  · exact absurd (Except.error.inj he).symm (hget.raises hfair StartInputs.raises_getCompetition msg)

/-- **The persisted log is the projection.** What can be read of the log after a start that returns is
numbered from zero on; it begins with the projection of the run that was sealed and stored, whose
evidence is `1..N` and binds the sealed events, and all that follows is derived. The parity fails only
where the log held events before and no start. What `finalize` seals is projected exactly where every
agent's means fit a float, and a replay is the rest of that log. -/
theorem startCompetition_projects (hown : OwnIds store) :
    (∀ marks store' returned,
      Steps store (inputs.startCompetition format sha256 policyHash) marks store'
        (.done (.ok returned)) →
      ∃ sourceMode runResult, StartInputs.Seals format sha256 inputs sourceMode runResult ∧
        store'.runs inputs.runId = some runResult ∧
        StartInputs.Projected format sha256 inputs runResult store') ∧
    (∀ marks store' msg,
      Steps store (inputs.startCompetition format sha256 policyHash) marks store'
        (.done (.error (.integrity msg))) →
      (∀ call e, Mark.failed call e ∈ marks → StartInputs.Unlike e) →
      visible store inputs.competitionId ≠ [] ∧
        ∀ event ∈ store.competitionEvents inputs.competitionId, event.seq ≠ 0) ∧
    ∀ agents sourceMode runId hasSink calls run window result competitionMeta,
      (CompetitionRun.start agents sourceMode runId hasSink).calls format calls = .ok run →
      (run.finalize format sha256 window (.ok ())).1 = .ok result →
      ((∃ log, buildEventLog format sha256 result competitionMeta = .ok log) ↔
          MeansFit result.scoreRows) ∧
        ∀ log, buildEventLog format sha256 result competitionMeta = .ok log →
          LogOf format sha256 result.runEvents log ∧
            ∀ sinceSeq, replayFrom log sinceSeq = log.drop (sinceSeq + 1).toNat :=
  ⟨fun _ _ _ h => startCompetition_returns hown h,
    fun _ _ _ h hfair => startCompetition_integrity h hfair,
    fun _ _ _ _ _ _ _ _ competitionMeta hcalls hfinalize =>
      finalized_log hcalls hfinalize competitionMeta⟩

end Law

/-! ## A mean that is no float -/

/-- A tick whose probability of one side is any int. -/
def probTick (tickSeq probBps : ℤ) : MarketState where
  fixtureId := 7
  tickSeq := tickSeq
  ts := 100
  phase := 0
  markets := [("OU", [("stable_prob_bps", .obj [("over", .int probBps)])])]
  scores := []
  marketsCanonical := by simp [marketsJson, Json.Canonical, Json.CanonicalFields]
  scoresCanonical := trivial

/-- A bet on the side, and a close at some probability. -/
def farCalls (probBps : ℤ) : List Runtime.Call :=
  [.feed (probTick 0 0) [(Execution.punter, .acted Execution.flagOver)],
    .feed (probTick 1 probBps) [(Execution.punter, .noAction)]]

/-- The score row of the bet. -/
def farRow (probBps : ℤ) (evidenceHash : String) : Params :=
  let clvBps : Decoded := .int (probBps - 0)
  plainRow ratioFormat String.ofList evidenceHash
    (Execution.punter, Execution.flagOver, probTick 0 0)
    ⟨clvBps, clvBps, .fin 0, true, Law.clvReason ratioFormat clvBps⟩ (probBps - 0)

theorem farCalls_seals (probBps : ℤ) : ∃ run result evidenceHash,
    (CompetitionRun.start [Execution.punter] .replay "r" true).calls ratioFormat (farCalls probBps) =
        .ok run ∧
      run.result ratioFormat String.ofList none = .ok result ∧
      result.scoreRows = [farRow probBps evidenceHash] := by
  obtain ⟨run, hcalls⟩ : ∃ run, (CompetitionRun.start [Execution.punter] .replay "r" true).calls
      ratioFormat (farCalls probBps) = .ok run := ⟨_, rfl⟩
  have hconsistent : run.Consistent := (CompetitionRun.Consistent.start _ _ _ _).calls hcalls
  obtain ⟨evidenceHash, hhash⟩ : ∃ evidenceHash, computeEvidenceHash ratioFormat String.ofList
      (run.rawEvents.map RunEvent.toDict) = .ok evidenceHash := ⟨_, hconsistent.evidenceHash⟩
  have hrows : run.decisions.mapM (scoreRow ratioFormat String.ofList run none evidenceHash) =
      .ok [farRow probBps evidenceHash] := by
    obtain rfl := Except.ok.inj hcalls
    rfl
  have hresult : ∃ result, run.result ratioFormat String.ofList none = .ok result ∧
      result.scoreRows = [farRow probBps evidenceHash] := by
    rw [CompetitionRun.result, hhash]
    exact ⟨_, bind_eq_ok.mpr ⟨_, rfl, bind_eq_ok.mpr ⟨_, hrows, rfl⟩⟩, rfl⟩
  obtain ⟨result, hresult, hscore⟩ := hresult
  exact ⟨run, result, evidenceHash, hcalls, hresult, hscore⟩

/-- **A mean that is no float**: a bet that closes at a probability past every float is sealed, and its
log is not built. -/
theorem mean_overflows : ∃ run result e,
    (CompetitionRun.start [Execution.punter] .replay "r" true).calls ratioFormat
        (farCalls (2 ^ 1024)) = .ok run ∧
      (run.finalize ratioFormat String.ofList none (.ok ())).1 = .ok result ∧
      buildEventLog ratioFormat String.ofList result { competitionId := "c" } = .error e := by
  obtain ⟨run, result, evidenceHash, hcalls, hresult, hrows⟩ := farCalls_seals (2 ^ 1024)
  have hfinalize := StartInputs.finalize_of_result (calls_finalized rfl hcalls) hresult
  cases hbuilt : buildEventLog ratioFormat String.ofList result { competitionId := "c" } with
  | error e => exact ⟨run, result, e, hcalls, hfinalize, hbuilt⟩
  | ok log =>
    have hfits := (((finalized_log hcalls hfinalize _).1.mp ⟨log, hbuilt⟩) "punter").1
    have hvalues : (((rowsOf result.scoreRows "punter").filter isScored).map fun row =>
        (intValue row "clv_bps").getD 0) = [2 ^ 1024 - 0] := by
      rw [hrows]
      rfl
    rw [hvalues] at hfits
    have hbound := hfits (List.cons_ne_nil _ _)
    have hpos : (0 : ℚ) < 2 ^ 970 := pow_pos two_pos _
    simp only [List.sum_singleton, List.length_singleton, sub_zero, Nat.cast_one, div_one, Int.cast_pow,
      Int.cast_ofNat, abs_of_pos (pow_pos (two_pos (α := ℚ)) 1024), PyFloat.overflowBound] at hbound
    exact absurd hbound (not_lt.mpr (sub_le_self _ hpos.le))

end Veridex.Api
