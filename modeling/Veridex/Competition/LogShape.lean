import Veridex.Checks.HonestRuns
import Veridex.Competition.EventLog
import Veridex.Scoring.RowOrder
import Veridex.Strategies.ValueSources

/-!
# The shape of an event log (`competition/events.py`)

The log of a sealed run is numbered from zero on. Its evidence is one event for each sealed event, with
that event's hash, and every other event is derived.

Results:
* `buildEventLog_shape`: the shape of a log that is built.
* `buildEventLog_ok_iff`: the log of a sealed run is built where every mean fits a float.
* `replayFrom_eq_drop`: a replay is what is left of the log after a number.
-/

namespace Veridex.Competition

open Veridex.Py Veridex.Lib Veridex.Runtime Veridex.Law Veridex.Scoring Veridex.Checks
open Veridex.Strategies (loadsOrEmpty orEmpty loadsOrEmpty_payloadText)

variable {format : Json.FloatFormat PyFloat} {sha256 : List Char → String}

/-! ## Evidence -/

/-- What the orchestrator emits. -/
inductive Emitted (format : Json.FloatFormat PyFloat) : EventBody → Prop
  | tick (snapshot : MarketState) : Emitted format (tickBody format snapshot)
  | outcome (agent : Agent) (outcome : Outcome) : Emitted format (outcomeBody format agent outcome)
  | window (window : RunWindow) (windowEndTs : ℤ) :
      Emitted format (windowBody format window windowEndTs)

theorem emitted_of_call (call : Call) : ∀ body ∈ bodiesOf format call, Emitted format body := by
  intro body hbody
  cases call with
  | feed snapshot results =>
    rcases List.mem_cons.mp hbody with rfl | hbody
    · exact .tick snapshot
    · obtain ⟨result, -, rfl⟩ := List.mem_map.mp hbody
      exact .outcome _ _
  | feedClosing snapshot =>
    obtain rfl := List.mem_singleton.mp hbody
    exact .tick snapshot

/-- The events of a sealed run are emitted ones. -/
theorem emitted_of_sealed {agents : List Agent} {sourceMode : SourceMode} {runId : String}
    {hasSink : Bool} {calls : List Call} {run : CompetitionRun} (window : Option RunWindow)
    (hcalls : (CompetitionRun.start agents sourceMode runId hasSink).calls format calls = .ok run) :
    ∀ event ∈ (run.sealWindow format window).rawEvents, Emitted format event.toEventBody := by
  intro event hevent
  have hbody := List.mem_map_of_mem (f := RunEvent.toEventBody) hevent
  rw [(sealWindow_emitted run window).1, (calls_emitted hcalls).1] at hbody
  simp only [CompetitionRun.start, List.map_nil, List.nil_append, List.mem_append,
    List.mem_flatMap] at hbody
  rcases hbody with ⟨call, -, hbody⟩ | hbody
  · exact emitted_of_call call _ hbody
  · unfold sealedBodies at hbody
    split at hbody
    · rw [List.mem_singleton.mp hbody]
      exact .window _ _
    · exact absurd hbody List.not_mem_nil

theorem tickTs_tickBody (snapshot : MarketState) :
    tickTs format (tickBody format snapshot).stateSnapshotJson = .ok (some snapshot.ts) := by
  simp only [tickTs, tickBody, loadsOrEmpty_payloadText, MarketState.toJson, Json.sorted,
    bind, Except.bind, Decoded.get, Json.lookup_sortedFields]
  rfl

theorem orEmpty_obj (fields : List (String × Decoded)) : orEmpty (.obj fields) = .obj fields := by
  cases fields <;> rfl

theorem tickPayload_tickBody (snapshot : MarketState) :
    ∃ payload, tickPayload format (tickBody format snapshot).stateSnapshotJson = .ok payload := by
  unfold tickPayload
  split_ifs
  · exact ⟨_, rfl⟩
  · refine exists_bind_ok ⟨_, loadsOrEmpty_payloadText _⟩ fun read hread => ?_
    obtain rfl := Except.ok.inj ((loadsOrEmpty_payloadText _).symm.trans hread)
    refine exists_bind_ok ⟨_, rfl⟩ fun found hfound => ?_
    obtain rfl : (marketsJson snapshot.markets).sorted = found := by
      simp only [MarketState.toJson, Json.sorted, Decoded.get, Json.lookup_sortedFields] at hfound
      exact Except.ok.inj hfound
    rw [marketsJson, Json.sorted, orEmpty_obj]
    exact exists_bind_ok ⟨_, rfl⟩ fun _ _ => ⟨_, rfl⟩

/-- A failure is shown by its message. -/
theorem actionPayload_error (agent : Agent) (fields : List (String × Decoded)) (sequenceNo : ℤ) :
    ∃ payload, actionPayload format
      { eventType := .error, resultPayloadJson := some (agentPayload format agent fields),
        sequenceNo := sequenceNo } = .ok payload := by
  refine exists_bind_ok ⟨_, loadsOrEmpty_payloadText _⟩ fun read hread => ?_
  obtain rfl := Except.ok.inj ((loadsOrEmpty_payloadText _).symm.trans hread)
  exact exists_bind_ok ⟨_, rfl⟩ fun _ _ => ⟨_, rfl⟩

theorem actionPayload_outcomeBody (agent : Agent) (outcome : Outcome) (sequenceNo : ℤ) :
    ∃ payload, actionPayload format
      { outcomeBody format agent outcome with sequenceNo := sequenceNo } = .ok payload := by
  cases outcome with
  | acted action =>
    refine exists_bind_ok ⟨_, loadsOrEmpty_payloadText _⟩ fun read hread => ?_
    obtain rfl := Except.ok.inj ((loadsOrEmpty_payloadText _).symm.trans hread)
    refine exists_bind_ok ⟨_, rfl⟩ fun _ _ => ?_
    refine exists_bind_ok ⟨_, loadsOrEmpty_payloadText _⟩ fun read hread => ?_
    obtain rfl := Except.ok.inj ((loadsOrEmpty_payloadText _).symm.trans hread)
    refine exists_bind_ok ⟨_, rfl⟩ fun found hfound => ?_
    obtain rfl : .obj (Json.sortedFields action.params) = found := by
      simp only [AgentAction.toJson, Json.sorted, Decoded.get, Json.lookup_sortedFields] at hfound
      exact Except.ok.inj hfound
    rw [orEmpty_obj]
    exact ⟨_, rfl⟩
  | noAction => exact actionPayload_error agent _ sequenceNo
  | failed error message => exact actionPayload_error agent _ sequenceNo

/-- **What is emitted** is shown. -/
theorem Emitted.shown {event : RunEvent} (h : Emitted format event.toEventBody) :
    ∃ shown, evidencePayload format event = .ok shown := by
  obtain ⟨body, sequenceNo⟩ := event
  dsimp only at h
  cases h with
  | tick snapshot => exact exists_bind_ok (tickPayload_tickBody snapshot) fun _ _ => ⟨_, rfl⟩
  | outcome agent outcome =>
    have hpayload : ∃ payload, actionPayload format
        { outcomeBody format agent outcome with sequenceNo := sequenceNo } = .ok payload :=
      actionPayload_outcomeBody agent outcome sequenceNo
    cases outcome <;> exact exists_bind_ok hpayload fun _ _ => ⟨_, rfl⟩
  | window window windowEndTs =>
    refine exists_bind_ok ⟨_, loadsOrEmpty_payloadText _⟩ fun read hread => ?_
    obtain rfl := Except.ok.inj ((loadsOrEmpty_payloadText _).symm.trans hread)
    exact ⟨_, rfl⟩

theorem Emitted.clocked {event : RunEvent} (h : Emitted format event.toEventBody) (currentTickTs : ℤ) :
    ∃ nextTs, nextTickTs format currentTickTs event = .ok nextTs := by
  obtain ⟨body, sequenceNo⟩ := event
  dsimp only at h
  cases h with
  | tick snapshot =>
    exact exists_bind_ok ⟨_, tickTs_tickBody snapshot⟩ fun _ _ => ⟨_, rfl⟩
  | outcome agent outcome => cases outcome <;> exact ⟨_, rfl⟩
  | window window windowEndTs => exact ⟨_, rfl⟩

/-- `event` is the evidence of a sealed event: it binds its hash. -/
structure Binds (format : Json.FloatFormat PyFloat) (sha256 : List Char → String)
    (runEvent : RunEvent) (event : CompetitionEvent) : Prop where
  seq : event.seq = runEvent.sequenceNo + 1
  evidence : event.evidence = true
  source : event.sourceSequenceNo = some runEvent.sequenceNo
  hash : event.payloadHash = eventPayloadHash format sha256 runEvent.toDict

section Evidence

variable {competitionId runId : String} {runEvent : RunEvent} {currentTickTs nextTs : ℤ}
  {event : CompetitionEvent}

theorem buildEvidenceEvent_binds (h : buildEvidenceEvent format sha256 competitionId runId runEvent
    currentTickTs = .ok (event, nextTs)) : Binds format sha256 runEvent event := by
  obtain ⟨clock, -, h⟩ := bind_eq_ok.mp h
  obtain ⟨shown, -, h⟩ := bind_eq_ok.mp h
  obtain ⟨rfl, -⟩ := Prod.mk.inj (Except.ok.inj h)
  exact ⟨rfl, rfl, rfl, rfl⟩

theorem Emitted.built (h : Emitted format runEvent.toEventBody) (sha256 : List Char → String)
    (competitionId runId : String) (currentTickTs : ℤ) :
    ∃ built, buildEvidenceEvent format sha256 competitionId runId runEvent currentTickTs =
      .ok built :=
  exists_bind_ok (h.clocked currentTickTs) fun _ _ => exists_bind_ok h.shown fun _ _ => ⟨_, rfl⟩

/-- Each sealed event has its evidence. -/
theorem evidenceEvents_binds {runEvents : List RunEvent} {events : List CompetitionEvent}
    (h : evidenceEvents format sha256 competitionId runId currentTickTs runEvents = .ok events) :
    List.Forall₂ (Binds format sha256) runEvents events := by
  induction runEvents generalizing currentTickTs events with
  | nil =>
    obtain rfl := Except.ok.inj h
    exact .nil
  | cons runEvent runEvents ih =>
    obtain ⟨⟨event, clock⟩, hbuilt, h⟩ := bind_eq_ok.mp h
    obtain ⟨rest, hrest, h⟩ := bind_eq_ok.mp h
    obtain rfl := Except.ok.inj h
    exact .cons (buildEvidenceEvent_binds hbuilt) (ih hrest)

/-- **What was emitted** has evidence. -/
theorem evidenceEvents_ok {runEvents : List RunEvent}
    (h : ∀ event ∈ runEvents, Emitted format event.toEventBody) (currentTickTs : ℤ) :
    ∃ events, evidenceEvents format sha256 competitionId runId currentTickTs runEvents =
      .ok events := by
  induction runEvents generalizing currentTickTs with
  | nil => exact ⟨_, rfl⟩
  | cons runEvent runEvents ih =>
    refine exists_bind_ok ((h runEvent List.mem_cons_self).built _ _ _ currentTickTs) fun built _ => ?_
    exact exists_bind_ok (ih (fun event hevent => h event (List.mem_cons_of_mem _ hevent)) _)
      fun _ _ => ⟨_, rfl⟩

end Evidence

/-! ## The tail -/

/-- A derived event says what it derives from. -/
structure IsDerived (event : CompetitionEvent) : Prop where
  evidence : event.evidence = false
  source : event.sourceSequenceNo = none
  derivedFrom : event.derivedFrom ≠ []

theorem derivedEvent_isDerived {eventType : EventType} {competitionId runId : String}
    {seq eventTs : ℤ} {derivedFrom : String} {payload : Params} :
    IsDerived (derivedEvent format sha256 eventType competitionId runId seq eventTs derivedFrom
      payload) :=
  ⟨rfl, rfl, List.cons_ne_nil _ _⟩

section Tail

variable {competitionId runId : String} {baseTs derivedSeq : ℤ} {tail : List Derived}

theorem numbered_seqs : (numbered format sha256 competitionId runId baseTs derivedSeq tail).map
    (·.seq) = (List.range tail.length).map fun i : ℕ => derivedSeq + i := by
  apply List.ext_getElem
  · simp [numbered]
  · intro i _ _
    simp [numbered]

theorem numbered_isDerived (h : ∀ derived ∈ tail, derived.derivedFrom ≠ []) :
    ∀ event ∈ numbered format sha256 competitionId runId baseTs derivedSeq tail, IsDerived event := by
  intro event hevent
  obtain ⟨i, hi, rfl⟩ := List.mem_mapIdx.mp hevent
  exact ⟨rfl, rfl, h _ (List.getElem_mem hi)⟩

theorem keyedRow_ok {row : Params} {keyed : KeyedRow} (h : keyedRow row = .ok keyed) :
    keyed.row = row ∧ agentIdOf row = .ok keyed.agentId := by
  obtain ⟨agentId, hagent, h⟩ := bind_eq_ok.mp h
  obtain ⟨tickSeq, -, h⟩ := bind_eq_ok.mp h
  split at h
  · obtain rfl := Except.ok.inj h
    exact ⟨rfl, hagent⟩
  · exact nomatch h

theorem rowsOfAgents_ne_nil {rows : List KeyedRow} :
    ∀ entry ∈ rowsOfAgents rows, entry.2 ≠ [] := by
  intro entry hentry
  obtain ⟨agentId, hagent, rfl⟩ := List.mem_map.mp hentry
  rw [List.mem_mergeSort, List.mem_eraseDups] at hagent
  obtain ⟨keyed, hkeyed, rfl⟩ := List.mem_map.mp hagent
  intro hnil
  have hmem : keyed ∈ (rows.filter (·.agentId = keyed.agentId)).mergeSort
      fun a b => a.tickSeq ≤ b.tickSeq := by
    rw [List.mem_mergeSort, List.mem_filter]
    exact ⟨hkeyed, by simp⟩
  exact List.ne_nil_of_mem hmem hnil

/-- Everything of the tail is derived from something. -/
theorem derivedTail_from {runResult : RunResult} {competitionMeta : CompetitionMeta}
    (h : derivedTail runResult competitionMeta = .ok tail) :
    ∀ derived ∈ tail, derived.derivedFrom ≠ [] := by
  obtain ⟨rows, -, h⟩ := bind_eq_ok.mp h
  obtain ⟨lawResults, hlaw, h⟩ := bind_eq_ok.mp h
  obtain ⟨scoreUpdates, hscore, h⟩ := bind_eq_ok.mp h
  obtain rfl := Except.ok.inj h
  intro derived hderived
  rcases List.mem_append.mp hderived with hderived | hderived
  · rcases List.mem_append.mp hderived with hderived | hderived
    · obtain ⟨keyed, -, hresult⟩ := exists_of_mem_mapM hlaw hderived
      obtain ⟨value, -, hresult⟩ := bind_eq_ok.mp hresult
      obtain ⟨valid, -, hresult⟩ := bind_eq_ok.mp hresult
      obtain ⟨reason, -, hresult⟩ := bind_eq_ok.mp hresult
      obtain ⟨edge, -, hresult⟩ := bind_eq_ok.mp hresult
      obtain rfl := Except.ok.inj hresult
      exact List.cons_ne_nil _ _
    · obtain ⟨⟨agentId, agentRows⟩, hentry, hupdate⟩ := exists_of_mem_mapM hscore hderived
      obtain ⟨valid, -, hupdate⟩ := bind_eq_ok.mp hupdate
      obtain ⟨meanClv, -, hupdate⟩ := bind_eq_ok.mp hupdate
      obtain ⟨meanWindowClv, -, hupdate⟩ := bind_eq_ok.mp hupdate
      obtain rfl := Except.ok.inj hupdate
      exact fun hnil => rowsOfAgents_ne_nil _ hentry (List.map_eq_nil_iff.mp hnil)
  · simp only [List.mem_cons, List.not_mem_nil, or_false] at hderived
    rcases hderived with rfl | rfl <;> exact List.cons_ne_nil _ _

end Tail

/-! ## The log -/

/-- `log` is numbered from zero on, its evidence binds the sealed events, and what is no evidence is
derived. -/
structure LogOf (format : Json.FloatFormat PyFloat) (sha256 : List Char → String)
    (runEvents : List RunEvent) (log : List CompetitionEvent) : Prop where
  numbered : log.map (·.seq) = (List.range log.length).map (Nat.cast : ℕ → ℤ)
  evidence : ∀ event ∈ log, event.evidence = true ↔ 1 ≤ event.seq ∧ event.seq ≤ runEvents.length
  binds : ∀ event ∈ log, event.evidence = true → ∃ runEvent,
    runEvents[(event.seq - 1).toNat]? = some runEvent ∧ Binds format sha256 runEvent event
  derived : ∀ event ∈ log, event.evidence = false → IsDerived event

/-- Numbers in order are the positions. -/
theorem seqs_append {before after : List CompetitionEvent} {n : ℕ}
    (hbefore : before.map (·.seq) = (List.range n).map (Nat.cast : ℕ → ℤ))
    (hafter : after.map (·.seq) = (List.range after.length).map fun i : ℕ => (n : ℤ) + i) :
    (before ++ after).map (·.seq) = (List.range (before ++ after).length).map (Nat.cast : ℕ → ℤ) := by
  have hn : before.length = n := by simpa using congrArg List.length hbefore
  rw [List.map_append, hbefore, hafter, List.length_append, hn, List.range_add, List.map_append,
    List.map_map]
  congr 1

section Log

variable {runEvents : List RunEvent} {log more : List CompetitionEvent}

/-- **More that is derived** goes on a log. -/
theorem LogOf.append (h : LogOf format sha256 runEvents log) (hlong : runEvents.length < log.length)
    (hseqs : more.map (·.seq) = (List.range more.length).map fun i : ℕ => (log.length : ℤ) + i)
    (hmore : ∀ event ∈ more, IsDerived event) : LogOf format sha256 runEvents (log ++ more) where
  numbered := seqs_append h.numbered hseqs
  evidence := by
    intro event hevent
    rcases List.mem_append.mp hevent with hevent | hevent
    · exact h.evidence event hevent
    · have hmem := List.mem_map_of_mem (f := CompetitionEvent.seq) hevent
      rw [hseqs] at hmem
      obtain ⟨i, -, hseq⟩ := List.mem_map.mp hmem
      rw [(hmore event hevent).evidence]
      constructor
      · exact nofun
      · omega
  binds := by
    intro event hevent hevidence
    rcases List.mem_append.mp hevent with hevent | hevent
    · exact h.binds event hevent hevidence
    · exact absurd ((hmore event hevent).evidence.symm.trans hevidence) Bool.false_ne_true
  derived := by
    intro event hevent hevidence
    rcases List.mem_append.mp hevent with hevent | hevent
    · exact h.derived event hevent hevidence
    · exact hmore event hevent

/-- The start, and the evidence after it. -/
theorem logOf_evidence (started : CompetitionEvent) {evidence : List CompetitionEvent}
    (hnumbered : runEvents.map (·.sequenceNo) =
      (List.range runEvents.length).map (Nat.cast : ℕ → ℤ))
    (hstarted : IsDerived started) (hseq : started.seq = 0)
    (hevidence : List.Forall₂ (Binds format sha256) runEvents evidence) :
    LogOf format sha256 runEvents (started :: evidence) := by
  have hlength := hevidence.length_eq
  have hat : ∀ i (hi : i < evidence.length), ∃ runEvent, runEvents[i]? = some runEvent ∧
      runEvent.sequenceNo = i ∧ Binds format sha256 runEvent evidence[i] := by
    intro i hi
    refine ⟨runEvents[i], List.getElem?_eq_getElem (hlength ▸ hi), ?_,
      List.Forall₂.get hevidence (hlength ▸ hi) hi⟩
    have hget := congrArg (fun seqs => seqs[i]?) hnumbered
    simpa [hlength ▸ hi] using hget
  have hmem : ∀ event ∈ evidence, ∃ runEvent, runEvents[(event.seq - 1).toNat]? = some runEvent ∧
      1 ≤ event.seq ∧ event.seq ≤ runEvents.length ∧ Binds format sha256 runEvent event := by
    intro event hevent
    obtain ⟨i, hi, rfl⟩ := List.getElem_of_mem hevent
    obtain ⟨runEvent, hrunEvent, hno, hbinds⟩ := hat i hi
    have hi' : (evidence[i].seq - 1).toNat = i := by
      rw [hbinds.seq, hno]
      omega
    refine ⟨runEvent, hi'.symm ▸ hrunEvent, ?_, ?_, hbinds⟩
    · rw [hbinds.seq, hno]
      omega
    · rw [hbinds.seq, hno, hlength]
      omega
  refine ⟨?_, ?_, ?_, ?_⟩
  · rw [List.map_cons, List.length_cons, List.range_succ_eq_map, List.map_cons, hseq, List.map_map]
    refine congrArg₂ _ rfl (List.ext_getElem (by simp) fun i hi _ => ?_)
    obtain ⟨runEvent, -, hno, hbinds⟩ := hat i (by simpa using hi)
    simp [hbinds.seq, hno]
  · intro event hevent
    rcases List.mem_cons.mp hevent with rfl | hevent
    · rw [hstarted.evidence, hseq]
      simp
    · obtain ⟨runEvent, -, hone, hle, hbinds⟩ := hmem event hevent
      exact ⟨fun _ => ⟨hone, hle⟩, fun _ => hbinds.evidence⟩
  · intro event hevent hevidence
    rcases List.mem_cons.mp hevent with rfl | hevent
    · exact absurd (hstarted.evidence.symm.trans hevidence) Bool.false_ne_true
    · obtain ⟨runEvent, hrunEvent, -, -, hbinds⟩ := hmem event hevent
      exact ⟨runEvent, hrunEvent, hbinds⟩
  · intro event hevent hevidence
    rcases List.mem_cons.mp hevent with rfl | hevent
    · exact hstarted
    · obtain ⟨runEvent, -, -, -, hbinds⟩ := hmem event hevent
      exact absurd (hevidence.symm.trans hbinds.evidence) Bool.false_ne_true

end Log

section Built

variable {runResult : RunResult} {competitionMeta : CompetitionMeta} {log : List CompetitionEvent}

/-- Sealed events that are in their order stay in it. -/
theorem mergeSort_numbered {runEvents : List RunEvent} (hnumbered : runEvents.map (·.sequenceNo) =
      (List.range runEvents.length).map (Nat.cast : ℕ → ℤ)) :
    (runEvents.mergeSort fun a b => a.sequenceNo ≤ b.sequenceNo) = runEvents := by
  apply List.mergeSort_of_pairwise
  have hrange : ((List.range runEvents.length).map (Nat.cast : ℕ → ℤ)).Pairwise (· ≤ ·) := by
    rw [List.pairwise_map]
    exact List.pairwise_lt_range.imp fun hlt => by exact_mod_cast hlt.le
  rw [← hnumbered, List.pairwise_map] at hrange
  exact hrange.imp fun hle => decide_eq_true hle

/-- What a log is made of. -/
theorem buildEventLog_parts (hnumbered : runResult.runEvents.map (·.sequenceNo) =
      (List.range runResult.runEvents.length).map (Nat.cast : ℕ → ℤ))
    (h : buildEventLog format sha256 runResult competitionMeta = .ok log) :
    ∃ evidence tail, evidenceEvents format sha256 competitionMeta.competitionId runResult.runId
        competitionMeta.eventTs runResult.runEvents = .ok evidence ∧
      derivedTail runResult competitionMeta = .ok tail ∧
      log = buildCompetitionStartedEvent format sha256 competitionMeta.competitionId runResult.runId
        runResult.sourceMode runResult.agentIds competitionMeta.eventTs :: evidence ++
        numbered format sha256 competitionMeta.competitionId runResult.runId competitionMeta.eventTs
          (runResult.runEvents.length + 1) tail := by
  obtain ⟨evidence, hevidence, h⟩ := bind_eq_ok.mp h
  obtain ⟨tail, htail, h⟩ := bind_eq_ok.mp h
  rw [mergeSort_numbered hnumbered] at hevidence
  exact ⟨evidence, tail, hevidence, htail, (Except.ok.inj h).symm⟩

/-- **The shape** of a log that is built. -/
theorem buildEventLog_shape (hnumbered : runResult.runEvents.map (·.sequenceNo) =
      (List.range runResult.runEvents.length).map (Nat.cast : ℕ → ℤ))
    (h : buildEventLog format sha256 runResult competitionMeta = .ok log) :
    LogOf format sha256 runResult.runEvents log ∧ runResult.runEvents.length < log.length := by
  obtain ⟨evidence, tail, hevidence, htail, rfl⟩ := buildEventLog_parts hnumbered h
  have hbinds := evidenceEvents_binds hevidence
  have hshape := logOf_evidence (buildCompetitionStartedEvent format sha256
    competitionMeta.competitionId runResult.runId runResult.sourceMode runResult.agentIds
    competitionMeta.eventTs) hnumbered derivedEvent_isDerived rfl hbinds
  refine ⟨hshape.append ?_ ?_ (numbered_isDerived (derivedTail_from htail)), ?_⟩
  · rw [List.length_cons, hbinds.length_eq]
    omega
  · rw [numbered_seqs, List.length_cons, hbinds.length_eq]
    simp [numbered]
  · rw [List.length_append, List.length_cons, hbinds.length_eq]
    omega

end Built

/-! ## What is built -/

/-- The numbers' mean fits a float. -/
def MeanFits (values : List ℤ) : Prop :=
  values ≠ [] → |(values.sum / values.length : ℚ)| < PyFloat.overflowBound

/-- Every agent's means fit. -/
def MeansFit (rows : List Params) : Prop := ∀ agentId,
  MeanFits (((rowsOf rows agentId).filter isScored).map fun row => (intValue row "clv_bps").getD 0) ∧
    MeanFits ((rowsOf rows agentId).filterMap fun row => intValue row "window_clv_bps")

theorem average_ok_iff (values : List ℤ) :
    (∃ mean, average values.sum values.length = .ok mean) ↔ MeanFits values := by
  unfold average MeanFits
  by_cases hnil : values = []
  · subst hnil
    simp
  · rw [if_neg (by simpa using hnil), asFloat]
    split_ifs with hfits
    · exact ⟨fun _ _ => hfits, fun _ => ⟨_, rfl⟩⟩
    · exact ⟨fun ⟨_, h⟩ => (nomatch h), fun h => absurd (h hnil) hfits⟩

/-- What the log tells of a score row is there. -/
structure Tells (row : Params) : Prop where
  keyed : ∃ keyed, keyedRow row = .ok keyed
  valid : (row.lookup "valid").isSome
  reason : (row.lookup "reason").isSome
  edge : (row.lookup "recomputed_edge_bps").isSome
  value : (row.lookup "window_clv_bps").isSome ∨ (row.lookup "clv_bps").isSome

section Rows

variable {run : CompetitionRun} {window : Option RunWindow} {evidenceHash : String}
  {decision : Agent × AgentAction × MarketState} {row : Params}

theorem isSome_setField {name other : String} {value : Decoded} (h : (row.lookup other).isSome) :
    ((Json.setField name value row).lookup other).isSome := by
  by_cases hname : other = name
  · subst hname
    rw [Json.lookup_setField]
    rfl
  · rwa [Json.lookup_setField_of_ne hname]

/-- **A sealed row** holds what is told of it. -/
theorem scoreRow_tells (h : scoreRow format sha256 run window evidenceHash decision = .ok row) :
    Tells row := by
  obtain ⟨verdict, -, hshows, hvalue⟩ := scoreRow_ok h
  obtain ⟨closing, -, h⟩ := bind_eq_ok.mp h
  obtain ⟨verdict', -, h⟩ := bind_eq_ok.mp h
  obtain ⟨edgeBps, -, h⟩ := bind_eq_ok.mp h
  have htold : (row.lookup "reason").isSome ∧ (row.lookup "recomputed_edge_bps").isSome := by
    obtain rfl := Except.ok.inj h
    unfold windowRow
    split
    · split_ifs
      · exact ⟨isSome_setField (isSome_setField rfl), isSome_setField (isSome_setField rfl)⟩
      · exact ⟨rfl, rfl⟩
      · exact ⟨rfl, rfl⟩
      · exact ⟨rfl, rfl⟩
    · exact ⟨rfl, rfl⟩
  refine ⟨?_, ?_, htold.1, htold.2, ?_⟩
  · have htick : row.lookup "tick_seq" = some (.int decision.2.2.tickSeq) := by
      have htick := hshows.tick
      rw [field] at htick
      cases hlookup : row.lookup "tick_seq" with
      | none => simp [hlookup] at htick
      | some found => rw [← htick, hlookup, Option.getD_some]
    have hagent : agentIdOf row = .ok decision.1.agentId := by rw [agentIdOf, hshows.agent]
    refine ⟨⟨decision.1.agentId, decision.2.2.tickSeq, row⟩, bind_eq_ok.mpr ⟨_, hagent, ?_⟩⟩
    exact bind_eq_ok.mpr ⟨_, Decoded.item_obj_ok.mpr ⟨_, rfl, htick⟩, rfl⟩
  · have hvalid := hshows.valid
    rw [field] at hvalid
    cases hlookup : row.lookup "valid" with
    | none => simp [hlookup] at hvalid
    | some found => rfl
  · cases hvalue with
    | clv _ hclv _ => exact .inr (by rw [hclv]; rfl)
    | windowClv _ _ _ _ _ _ hwindowClv => exact .inl (by rw [hwindowClv]; rfl)
    | pending _ _ _ _ _ _ hclv _ => exact .inr (by rw [hclv]; rfl)

theorem item_of_isSome {name : String} (h : (row.lookup name).isSome) :
    ∃ value, Decoded.item (.obj row) (.str name) = .ok value := by
  obtain ⟨value, hvalue⟩ := Option.isSome_iff_exists.mp h
  exact ⟨value, Decoded.item_obj_ok.mpr ⟨name, rfl, hvalue⟩⟩

theorem lawResult_ok {keyed : KeyedRow} (h : Tells keyed.row) : ∃ derived, lawResult keyed = .ok derived := by
  have hvalue : ∃ value, Decoded.item (.obj keyed.row) (.str
      (if (keyed.row.lookup "window_clv_bps").isSome then "window_clv_bps" else "clv_bps")) =
      .ok value := by
    by_cases hwindow : (keyed.row.lookup "window_clv_bps").isSome = true
    · rw [if_pos hwindow]
      exact item_of_isSome hwindow
    · rw [if_neg hwindow]
      exact item_of_isSome (h.value.resolve_left hwindow)
  refine exists_bind_ok hvalue fun _ _ => ?_
  refine exists_bind_ok (item_of_isSome h.valid) fun _ _ => ?_
  refine exists_bind_ok (item_of_isSome h.reason) fun _ _ => ?_
  exact exists_bind_ok (item_of_isSome h.edge) fun _ _ => ⟨_, rfl⟩

/-- An agent's score is told where its means fit. -/
theorem scoreUpdate_ok_iff {proofModeMap : Params} {agentId : String} {rows : List KeyedRow}
    (htells : ∀ keyed ∈ rows, Tells keyed.row) :
    (∃ derived, scoreUpdate proofModeMap agentId rows = .ok derived) ↔
      MeanFits ((rows.filter (isScored ·.row)).map fun keyed =>
        (intValue keyed.row "clv_bps").getD 0) ∧
      MeanFits (rows.filterMap fun keyed => intValue keyed.row "window_clv_bps") := by
  rw [← average_ok_iff, ← average_ok_iff]
  constructor
  · rintro ⟨derived, h⟩
    obtain ⟨valid, -, h⟩ := bind_eq_ok.mp h
    obtain ⟨meanClv, hmean, h⟩ := bind_eq_ok.mp h
    obtain ⟨meanWindowClv, hmeanWindow, -⟩ := bind_eq_ok.mp h
    exact ⟨⟨_, hmean⟩, _, hmeanWindow⟩
  · rintro ⟨hmean, hmeanWindow⟩
    refine exists_bind_ok (exists_mapM_ok fun keyed hkeyed => item_of_isSome (htells keyed hkeyed).valid)
      fun _ _ => ?_
    exact exists_bind_ok hmean fun _ _ => exists_bind_ok hmeanWindow fun _ _ => ⟨_, rfl⟩

end Rows

section Rows

variable {rows : List Params} {keyed : List KeyedRow}

/-- The keyed rows of an agent are its rows, in the order of their ticks. -/
theorem rows_of_keyed (h : rows.mapM keyedRow = .ok keyed) (agentId : String) :
    (((keyed.filter (·.agentId = agentId)).mergeSort fun a b => a.tickSeq ≤ b.tickSeq).map
      (·.row)).Perm (rowsOf rows agentId) := by
  have hrows : (keyed.filter (·.agentId = agentId)).map (·.row) = rowsOf rows agentId := by
    have hall := (mapM_eq_ok.mp h).imp fun _ _ hkeyed => keyedRow_ok hkeyed
    rw [rowsOf]
    clear h
    induction hall with
    | nil => rfl
    | @cons row keyed _ _ hkeyed _ ih =>
      rw [List.filter_cons, List.filter_cons, hkeyed.2]
      by_cases hown : keyed.agentId = agentId
      · rw [if_pos (by simpa using hown), if_pos (by simpa [Except.toOption] using hown),
          List.map_cons, ih, hkeyed.1]
      · rw [if_neg (by simpa using hown), if_neg (by simpa [Except.toOption] using hown), ih]
  rw [← hrows]
  exact (List.mergeSort_perm _ _).map _

theorem meanFits_perm {values values' : List ℤ} (h : values.Perm values') :
    MeanFits values ↔ MeanFits values' := by
  have hsum : values.sum = values'.sum := h.sum_eq
  have hnil : values = [] ↔ values' = [] := by
    rw [← List.length_eq_zero_iff, h.length_eq, List.length_eq_zero_iff]
  rw [MeanFits, MeanFits, h.length_eq, hsum, ne_eq, hnil]

/-- The two means of an agent, of its keyed rows. -/
theorem meansFit_keyed {own : List KeyedRow} {agentId : String}
    (h : (own.map (·.row)).Perm (rowsOf rows agentId)) :
    (MeanFits ((own.filter (isScored ·.row)).map fun keyed => (intValue keyed.row "clv_bps").getD 0) ∧
        MeanFits (own.filterMap fun keyed => intValue keyed.row "window_clv_bps")) ↔
      MeanFits (((rowsOf rows agentId).filter isScored).map fun row =>
          (intValue row "clv_bps").getD 0) ∧
        MeanFits ((rowsOf rows agentId).filterMap fun row => intValue row "window_clv_bps") := by
  have hclv := ((h.filter isScored).map fun row => (intValue row "clv_bps").getD 0)
  have hwindow := h.filterMap fun row => intValue row "window_clv_bps"
  rw [List.filter_map, List.map_map] at hclv
  rw [List.filterMap_map] at hwindow
  exact and_congr (meanFits_perm hclv) (meanFits_perm hwindow)

end Rows

section Built

variable {runResult : RunResult}

/-- The tail of sealed rows is built where their means fit. -/
theorem derivedTail_ok_iff (htells : ∀ row ∈ runResult.scoreRows, Tells row)
    (competitionMeta : CompetitionMeta) :
    (∃ tail, derivedTail runResult competitionMeta = .ok tail) ↔ MeansFit runResult.scoreRows := by
  obtain ⟨keyed, hkeyed⟩ := exists_mapM_ok fun row hrow => (htells row hrow).keyed
  have hrows : ∀ entry ∈ keyed, Tells entry.row := by
    intro entry hentry
    obtain ⟨row, hrow, hentry⟩ := exists_of_mem_mapM hkeyed hentry
    exact (keyedRow_ok hentry).1 ▸ htells row hrow
  have hown : ∀ agentId, ∀ entry ∈ (keyed.filter (·.agentId = agentId)).mergeSort
      fun a b => a.tickSeq ≤ b.tickSeq, Tells entry.row := fun agentId entry hentry =>
    hrows entry (List.mem_of_mem_filter (List.mem_mergeSort.mp hentry))
  constructor
  · rintro ⟨tail, h⟩ agentId
    obtain ⟨keyed', hkeyed', h⟩ := bind_eq_ok.mp h
    obtain rfl := Except.ok.inj (hkeyed.symm.trans hkeyed')
    obtain ⟨lawResults, -, h⟩ := bind_eq_ok.mp h
    obtain ⟨scoreUpdates, hscore, -⟩ := bind_eq_ok.mp h
    rw [← meansFit_keyed (rows_of_keyed hkeyed agentId)]
    by_cases hmem : agentId ∈ (keyed.map (·.agentId))
    · have hentry : (agentId, (keyed.filter (·.agentId = agentId)).mergeSort
          fun a b => a.tickSeq ≤ b.tickSeq) ∈ rowsOfAgents keyed := by
        refine List.mem_map.mpr ⟨agentId, ?_, rfl⟩
        rw [List.mem_mergeSort, List.mem_eraseDups]
        exact hmem
      obtain ⟨derived, -, hderived⟩ := exists_of_mapM_ok hscore hentry
      exact (scoreUpdate_ok_iff (hown agentId)).mp ⟨derived, hderived⟩
    · have hnone : keyed.filter (·.agentId = agentId) = [] := by
        rw [List.filter_eq_nil_iff]
        intro entry hentry hid
        exact hmem (List.mem_map.mpr ⟨entry, hentry, of_decide_eq_true hid⟩)
      simp [hnone, MeanFits]
  · intro hfits
    refine exists_bind_ok ⟨keyed, hkeyed⟩ fun keyed' hkeyed' => ?_
    obtain rfl := Except.ok.inj (hkeyed.symm.trans hkeyed')
    refine exists_bind_ok (exists_mapM_ok fun entry hentry => ?_) fun _ _ => ?_
    · exact lawResult_ok (hrows entry (List.mem_mergeSort.mp hentry))
    · refine exists_bind_ok (exists_mapM_ok fun entry hentry => ?_) fun _ _ => ⟨_, rfl⟩
      obtain ⟨agentId, -, rfl⟩ := List.mem_map.mp hentry
      exact (scoreUpdate_ok_iff (hown agentId)).mpr ((meansFit_keyed
        (rows_of_keyed hkeyed agentId)).mpr (hfits agentId))

/-- **The log** of sealed rows is built where their means fit. -/
theorem buildEventLog_ok_iff (hnumbered : runResult.runEvents.map (·.sequenceNo) =
      (List.range runResult.runEvents.length).map (Nat.cast : ℕ → ℤ))
    (hemitted : ∀ event ∈ runResult.runEvents, Emitted format event.toEventBody)
    (htells : ∀ row ∈ runResult.scoreRows, Tells row) (competitionMeta : CompetitionMeta) :
    (∃ log, buildEventLog format sha256 runResult competitionMeta = .ok log) ↔
      MeansFit runResult.scoreRows := by
  rw [← derivedTail_ok_iff htells competitionMeta]
  constructor
  · rintro ⟨log, h⟩
    obtain ⟨evidence, tail, -, htail, -⟩ := buildEventLog_parts hnumbered h
    exact ⟨tail, htail⟩
  · rintro ⟨tail, htail⟩
    refine exists_bind_ok ?_ fun _ _ => exists_bind_ok ⟨tail, htail⟩ fun _ _ => ⟨_, rfl⟩
    rw [mergeSort_numbered hnumbered]
    exact evidenceEvents_ok hemitted _

end Built

/-! ## Replays -/

section Numbered

variable {log : List CompetitionEvent}
  (h : log.map (·.seq) = (List.range log.length).map (Nat.cast : ℕ → ℤ))

include h

theorem seq_getElem (i : ℕ) (hi : i < log.length) : log[i].seq = i := by
  have hget := congrArg (fun seqs => seqs[i]?) h
  simpa [hi] using hget

/-- The events up to a number are the first of a numbered log. -/
theorem filter_upTo (n : ℕ) : (log.filter fun event => event.seq ≤ (n : ℤ)) = log.take (n + 1) := by
  have htake : (log.take (n + 1)).filter (fun event => event.seq ≤ (n : ℤ)) = log.take (n + 1) := by
    rw [List.filter_eq_self]
    intro event hevent
    obtain ⟨i, hi, rfl⟩ := List.getElem_of_mem hevent
    rw [List.length_take] at hi
    rw [List.getElem_take, seq_getElem h, decide_eq_true_eq]
    omega
  have hdrop : (log.drop (n + 1)).filter (fun event => event.seq ≤ (n : ℤ)) = [] := by
    rw [List.filter_eq_nil_iff]
    intro event hevent
    obtain ⟨i, hi, rfl⟩ := List.getElem_of_mem hevent
    rw [List.getElem_drop, seq_getElem h, decide_eq_true_eq]
    omega
  conv_lhs => rw [← List.take_append_drop (n + 1) log]
  rw [List.filter_append, htake, hdrop, List.append_nil]

/-- The events after a number are what is left of a numbered log. -/
theorem filter_after (sinceSeq : ℤ) :
    (log.filter fun event => sinceSeq < event.seq) = log.drop (sinceSeq + 1).toNat := by
  have htake : (log.take (sinceSeq + 1).toNat).filter (fun event => sinceSeq < event.seq) = [] := by
    rw [List.filter_eq_nil_iff]
    intro event hevent
    obtain ⟨i, hi, rfl⟩ := List.getElem_of_mem hevent
    rw [List.length_take] at hi
    rw [List.getElem_take, seq_getElem h, decide_eq_true_eq]
    omega
  have hdrop : (log.drop (sinceSeq + 1).toNat).filter (fun event => sinceSeq < event.seq) =
      log.drop (sinceSeq + 1).toNat := by
    rw [List.filter_eq_self]
    intro event hevent
    obtain ⟨i, hi, rfl⟩ := List.getElem_of_mem hevent
    rw [List.getElem_drop, seq_getElem h, decide_eq_true_eq]
    omega
  conv_lhs => rw [← List.take_append_drop (sinceSeq + 1).toNat log]
  rw [List.filter_append, htake, hdrop, List.nil_append]

/-- **A replay** is what is left of a numbered log after a number. -/
theorem replayFrom_eq_drop (sinceSeq : ℤ) :
    replayFrom log sinceSeq = log.drop (sinceSeq + 1).toNat := by
  rw [replayFrom, filter_after h]
  apply List.mergeSort_of_pairwise
  rw [List.pairwise_iff_getElem]
  intro i j hi hj hlt
  rw [List.getElem_drop, List.getElem_drop, seq_getElem h, seq_getElem h, decide_eq_true_eq]
  omega

end Numbered

/-! ## Sealed runs -/

section Sealed

variable {agents : List Agent} {sourceMode : SourceMode} {runId : String} {hasSink : Bool}
  {calls : List Call} {run : CompetitionRun} {window : Option RunWindow} {result : RunResult}

/-- **What `finalize` seals** is projected where its means fit, and a replay of its log is the rest
of it. -/
theorem finalized_log
    (hcalls : (CompetitionRun.start agents sourceMode runId hasSink).calls format calls = .ok run)
    (hfinalize : (run.finalize format sha256 window (.ok ())).1 = .ok result)
    (competitionMeta : CompetitionMeta) :
    ((∃ log, buildEventLog format sha256 result competitionMeta = .ok log) ↔
        MeansFit result.scoreRows) ∧
      ∀ log, buildEventLog format sha256 result competitionMeta = .ok log →
        LogOf format sha256 result.runEvents log ∧
          ∀ sinceSeq, replayFrom log sinceSeq = log.drop (sinceSeq + 1).toNat := by
  have hresult : (run.sealWindow format window).result format sha256
      (window.map (RunWindow.stamp run.snapshots)) = .ok result :=
    (finalize_ok (Prod.ext hfinalize rfl)).1
  obtain ⟨-, hrows, hevents, -⟩ := result_parts hresult
  have hconsistent : (run.sealWindow format window).Consistent :=
    ((CompetitionRun.Consistent.start agents sourceMode runId hasSink).calls hcalls).sealWindow window
  have hnumbered : result.runEvents.map (·.sequenceNo) =
      (List.range result.runEvents.length).map (Nat.cast : ℕ → ℤ) := by
    rw [hevents]
    exact hconsistent.numbered
  have htells : ∀ row ∈ result.scoreRows, Tells row := by
    intro row hrow
    obtain ⟨decision, -, hrow⟩ := exists_of_mem_mapM hrows hrow
    exact scoreRow_tells hrow
  refine ⟨buildEventLog_ok_iff hnumbered ?_ htells competitionMeta, fun log hlog => ?_⟩
  · rw [hevents]
    exact emitted_of_sealed window hcalls
  · have hshape := (buildEventLog_shape hnumbered hlog).1
    exact ⟨hshape, replayFrom_eq_drop hshape.numbered⟩

end Sealed

end Veridex.Competition
