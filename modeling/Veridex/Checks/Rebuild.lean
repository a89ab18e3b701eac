import Veridex.Checks.Build
import Veridex.Lib.Keyed
import Veridex.Runtime.FinalizeRetry

/-!
# What the checker rebuilds of a run (`checks/build.py`, `runtime/orchestrator.py`)

The orchestrator works on the snapshots and the actions it was given, in the order they came; the
checker has their texts, sorts the states by their ticks and pairs each decision with the tick before
it.

* `calls_emitted`: the events, decisions and snapshots of a run, by the calls made.
* `marketstates_of_calls` and `actions_of_calls`: the checker's walk over these events gives the
  snapshots and the decisions back.
* `rebuilt_of_run`: where the ticks increase and the agents' ids differ, every decision's entry and
  action are found again.
-/

namespace Veridex.Checks

open Veridex.Py Veridex.Lib Veridex.Runtime Veridex.Law Veridex.Scoring

variable {format : Json.FloatFormat PyFloat} {sha256 : List Char → String}

/-! ## The events of the calls -/

/-- What a call emits. -/
def bodiesOf (format : Json.FloatFormat PyFloat) : Call → List EventBody
  | .feed snapshot results =>
    tickBody format snapshot :: results.map fun result => outcomeBody format result.1 result.2
  | .feedClosing snapshot => [tickBody format snapshot]

/-- The decision an outcome adds. -/
def decidedBy (snapshot : MarketState) :
    Agent × Outcome → Option (Agent × AgentAction × MarketState)
  | (agent, .acted action) => some (agent, action, snapshot)
  | (_, .noAction) | (_, .failed _ _) => none

/-- The decisions a call adds. -/
def decisionsOf : Call → List (Agent × AgentAction × MarketState)
  | .feed snapshot results => results.filterMap (decidedBy snapshot)
  | .feedClosing _ => []

/-- The fields a run does not write after its start. -/
structure SameSetup (run run' : CompetitionRun) : Prop where
  agents : run'.agents = run.agents
  sourceMode : run'.sourceMode = run.sourceMode
  runId : run'.runId = run.runId

theorem records_emitted {snapshot : MarketState} {results : List (Agent × Outcome)} :
    ∀ run : CompetitionRun,
      let run' := results.foldl (CompetitionRun.record format snapshot) run
      run'.rawEvents.map RunEvent.toEventBody = run.rawEvents.map RunEvent.toEventBody ++
          results.map (fun result => outcomeBody format result.1 result.2) ∧
        run'.decisions = run.decisions ++ results.filterMap (decidedBy snapshot) ∧
        run'.snapshots = run.snapshots ∧ SameSetup run run' := by
  induction results with
  | nil => exact fun run => ⟨by simp, by simp, rfl, rfl, rfl, rfl⟩
  | cons result results ih =>
    intro run
    obtain ⟨agent, outcome⟩ := result
    obtain ⟨hevents, hdecisions, hsnapshots, hsetup⟩ :=
      ih (run.record format snapshot (agent, outcome))
    refine ⟨?_, ?_, ?_, ?_⟩
    · rw [List.foldl_cons, hevents]
      cases outcome <;> simp [CompetitionRun.record, CompetitionRun.emit]
    · rw [List.foldl_cons, hdecisions]
      cases outcome with
      | acted action => simp [CompetitionRun.record, CompetitionRun.emit, decidedBy]
      | noAction => rfl
      | failed error message => rfl
    · rw [List.foldl_cons, hsnapshots]
      cases outcome <;> rfl
    · obtain ⟨hagents, hmode, hid⟩ := hsetup
      cases outcome <;> exact ⟨hagents, hmode, hid⟩

/-- What one call adds. -/
theorem call_emitted {run run' : CompetitionRun} {call : Call}
    (h : run.call format call = .ok run') :
    run'.rawEvents.map RunEvent.toEventBody =
        run.rawEvents.map RunEvent.toEventBody ++ bodiesOf format call ∧
      run'.decisions = run.decisions ++ decisionsOf call ∧
      run'.snapshots = run.snapshots ++ [call.snapshot] ∧ SameSetup run run' := by
  cases call with
  | feed snapshot results =>
    simp only [CompetitionRun.call, CompetitionRun.feed] at h
    split_ifs at h
    obtain rfl := Except.ok.inj h
    obtain ⟨hevents, hdecisions, hsnapshots, hagents, hmode, hid⟩ :=
      @records_emitted format snapshot results (run.tick format snapshot)
    refine ⟨?_, hdecisions, hsnapshots, hagents, hmode, hid⟩
    rw [hevents]
    simp [CompetitionRun.tick, CompetitionRun.emit, bodiesOf]
  | feedClosing snapshot =>
    simp only [CompetitionRun.call, CompetitionRun.feedClosing] at h
    split_ifs at h
    obtain rfl := Except.ok.inj h
    refine ⟨?_, ?_, rfl, rfl, rfl, rfl⟩
    · simp [CompetitionRun.tick, CompetitionRun.emit, bodiesOf]
    · simp [CompetitionRun.tick, CompetitionRun.emit, decisionsOf]

/-- **What the calls leave**: their events, their decisions and their snapshots. -/
theorem calls_emitted {calls : List Call} : ∀ {run run' : CompetitionRun},
    run.calls format calls = .ok run' →
      run'.rawEvents.map RunEvent.toEventBody =
          run.rawEvents.map RunEvent.toEventBody ++ calls.flatMap (bodiesOf format) ∧
        run'.decisions = run.decisions ++ calls.flatMap decisionsOf ∧
        run'.snapshots = run.snapshots ++ calls.map Call.snapshot ∧ SameSetup run run' := by
  induction calls with
  | nil =>
    intro run run' h
    obtain rfl := Except.ok.inj h
    exact ⟨by simp, by simp, by simp, rfl, rfl, rfl⟩
  | cons call calls ih =>
    intro run run' h
    obtain ⟨middle, hcall, hrest⟩ := bind_eq_ok.mp h
    obtain ⟨hevents, hdecisions, hsnapshots, hagents, hmode, hid⟩ := call_emitted hcall
    obtain ⟨hevents', hdecisions', hsnapshots', hagents', hmode', hid'⟩ := ih hrest
    refine ⟨?_, ?_, ?_, hagents'.trans hagents, hmode'.trans hmode, hid'.trans hid⟩
    · rw [hevents', hevents, List.flatMap_cons, List.append_assoc]
    · rw [hdecisions', hdecisions, List.flatMap_cons, List.append_assoc]
    · rw [hsnapshots', hsnapshots, List.map_cons, List.append_assoc]
      rfl

/-! ## The states -/

theorem payloadText_ne_empty (fields : List (String × Decoded)) :
    payloadText format (.obj fields) ≠ "" := by
  obtain ⟨cs, hcs⟩ := Json.dumps_obj format fields
  intro h
  have htoList := congrArg String.toList h
  simp [payloadText, serializePayload, hcs] at htoList

theorem toJson_text_ne_empty (state : MarketState) : payloadText format state.toJson ≠ "" :=
  payloadText_ne_empty _

/-- The snapshot text of a tick. -/
def tickText (body : EventBody) : Option String :=
  if body.eventType = .tick then body.stateSnapshotJson.filter (· ≠ "") else none

theorem tickSnapshots_eq (events : List RunEvent) :
    tickSnapshots events = (events.map RunEvent.toEventBody).filterMap tickText := by
  rw [List.filterMap_map]
  rfl

theorem tickText_outcome (agent : Agent) (outcome : Outcome) :
    tickText (outcomeBody format agent outcome) = none := by
  cases outcome <;> rfl

theorem tickTexts_of_call (call : Call) :
    (bodiesOf format call).filterMap tickText = [payloadText format call.snapshot.toJson] := by
  have htick : ∀ snapshot : MarketState, tickText (tickBody format snapshot) =
      some (payloadText format snapshot.toJson) := by
    intro snapshot
    simp [tickText, tickBody, Option.filter, toJson_text_ne_empty]
  cases call with
  | feed snapshot results =>
    have hnone : (results.map fun result => outcomeBody format result.1 result.2).filterMap
        tickText = [] := by
      rw [List.filterMap_map, List.filterMap_eq_nil_iff]
      exact fun result _ => tickText_outcome result.1 result.2
    rw [bodiesOf, List.filterMap_cons, htick]
    simp [hnone, Call.snapshot]
  | feedClosing snapshot => simp [bodiesOf, htick, Call.snapshot]

/-- A sealed snapshot is read back. -/
theorem read_snapshot (state : MarketState) :
    (do MarketState.ofJson (← loadsText format (payloadText format state.toJson))) =
      .ok state := by
  rw [loadsText_payloadText]
  exact state.ofJson_sorted

/-- **The states** of the calls' events, sorted, are the snapshots in the order they came. -/
theorem marketstates_of_calls {calls : List Call} {events : List RunEvent} {tail : List EventBody}
    (hevents : events.map RunEvent.toEventBody = calls.flatMap (bodiesOf format) ++ tail)
    (htail : tail.filterMap tickText = [])
    (hticks : (calls.map Call.snapshot).Pairwise fun a b => a.tickSeq < b.tickSeq) :
    marketstatesFromEvents format events = .ok (calls.map Call.snapshot) := by
  have htexts : tickSnapshots events =
      (calls.map Call.snapshot).map fun state => payloadText format state.toJson := by
    rw [tickSnapshots_eq, hevents, List.filterMap_append, htail, List.append_nil, List.map_map]
    clear hevents hticks
    induction calls with
    | nil => rfl
    | cons call calls ih =>
      rw [List.flatMap_cons, List.filterMap_append, ih, tickTexts_of_call]
      rfl
  have hread : (tickSnapshots events).mapM (fun text => do
      MarketState.ofJson (← loadsText format text)) = .ok (calls.map Call.snapshot) := by
    rw [htexts, mapM_eq_ok, List.forall₂_map_left_iff, List.forall₂_same]
    exact fun state _ => read_snapshot state
  have hsorted : (calls.map Call.snapshot).insertionSort (fun a b => a.tickSeq ≤ b.tickSeq) =
      calls.map Call.snapshot := by
    apply List.Pairwise.insertionSort_eq
    exact hticks.imp fun hlt => le_of_lt hlt
  rw [marketstatesFromEvents, hread]
  simp only [bind, Except.bind, hsorted]
  rfl

/-! ## The actions -/

/-- A decision, as the checker's walk keeps it. -/
def sealedAction (decision : Agent × AgentAction × MarketState) : SealedAction :=
  ((.int decision.2.2.tickSeq, .str decision.1.agentId), decision.2.1.toJson.sorted)

/-- The walk over events, by their bodies. -/
def bodyStep (format : Json.FloatFormat PyFloat) (walk : Decoded × List SealedAction)
    (body : EventBody) : Except PyExc (Decoded × List SealedAction) :=
  actionStep format walk { body with sequenceNo := 0 }

theorem get_sorted (fields : List (String × Decoded)) (name : String) (default : Decoded) :
    Decoded.get (Json.sorted (.obj fields)) name default =
      .ok (((fields.lookup name).map Json.sorted).getD default) := by
  rw [Json.sorted, Decoded.get, Json.lookup_sortedFields]

theorem bodyStep_tick (walk : Decoded × List SealedAction) (snapshot : MarketState) :
    bodyStep format walk (tickBody format snapshot) = .ok (.int snapshot.tickSeq, walk.2) := by
  have htext : (some (payloadText format snapshot.toJson)).filter (· ≠ "") =
      some (payloadText format snapshot.toJson) := by
    simp [Option.filter, toJson_text_ne_empty]
  simp only [bodyStep, actionStep, tickBody, htext, loadsText_payloadText, bind, Except.bind]
  rw [MarketState.toJson, get_sorted]
  rfl

theorem bodyStep_outcome (tick : ℤ) (actions : List SealedAction) (agent : Agent)
    (outcome : Outcome) (snapshot : MarketState) (htick : snapshot.tickSeq = tick) :
    bodyStep format (.int tick, actions) (outcomeBody format agent outcome) =
      .ok (.int tick, ((decidedBy snapshot (agent, outcome)).map sealedAction).toList ++ actions) := by
  cases outcome with
  | acted action =>
    have haction : (some (payloadText format action.toJson)).filter (· ≠ "") =
        some (payloadText format action.toJson) := by
      simp [Option.filter, AgentAction.toJson, payloadText_ne_empty]
    have hagent : (some (agentPayload format agent [])).filter (· ≠ "") =
        some (agentPayload format agent []) := by
      simp [Option.filter, agentPayload, payloadText_ne_empty]
    simp only [bodyStep, actionStep, outcomeBody, haction, hagent, Option.getD_some]
    rw [agentPayload, loadsText_payloadText, loadsText_payloadText]
    simp only [bind, Except.bind, get_sorted]
    simp [Decoded.key, Json.sorted, decidedBy, sealedAction, htick, pure, Except.pure]
  | noAction => rfl
  | failed error message => rfl

theorem bodyStep_outcomes {snapshot : MarketState} {results : List (Agent × Outcome)} :
    ∀ actions : List SealedAction,
      (results.map fun result => outcomeBody format result.1 result.2).foldlM (bodyStep format)
          (.int snapshot.tickSeq, actions) =
        .ok (.int snapshot.tickSeq,
          ((results.filterMap (decidedBy snapshot)).map sealedAction).reverse ++ actions) := by
  induction results with
  | nil => exact fun _ => rfl
  | cons result results ih =>
    intro actions
    rw [List.map_cons, List.foldlM_cons,
      bodyStep_outcome snapshot.tickSeq actions result.1 result.2 snapshot rfl]
    refine (ih _).trans ?_
    rw [List.filterMap_cons]
    cases decidedBy snapshot result with
    | none => rfl
    | some decision => simp

theorem bodyStep_call (call : Call) (walk : Decoded × List SealedAction) :
    (bodiesOf format call).foldlM (bodyStep format) walk =
      .ok (.int call.snapshot.tickSeq,
        ((decisionsOf call).map sealedAction).reverse ++ walk.2) := by
  cases call with
  | feed snapshot results =>
    rw [bodiesOf, List.foldlM_cons, bodyStep_tick]
    exact bodyStep_outcomes walk.2
  | feedClosing snapshot =>
    rw [bodiesOf, List.foldlM_cons, bodyStep_tick]
    rfl

/-- Over the calls' events, the walk gathers their decisions. -/
theorem bodyStep_calls {calls : List Call} : ∀ walk : Decoded × List SealedAction, ∃ tick,
    (calls.flatMap (bodiesOf format)).foldlM (bodyStep format) walk =
      .ok (tick, ((calls.flatMap decisionsOf).map sealedAction).reverse ++ walk.2) := by
  induction calls with
  | nil => exact fun walk => ⟨walk.1, rfl⟩
  | cons call calls ih =>
    intro walk
    obtain ⟨tick, htick⟩ := ih (.int call.snapshot.tickSeq,
      ((decisionsOf call).map sealedAction).reverse ++ walk.2)
    refine ⟨tick, ?_⟩
    rw [List.flatMap_cons, List.foldlM_append, bodyStep_call]
    refine htick.trans ?_
    simp

/-- **The actions** of the calls' events are the decisions. -/
theorem actions_of_calls {calls : List Call} {events : List RunEvent} {tail : List EventBody}
    (hevents : events.map RunEvent.toEventBody = calls.flatMap (bodiesOf format) ++ tail)
    (htail : ∀ walk, tail.foldlM (bodyStep format) walk = .ok walk)
    (hordered : events.Pairwise fun a b => a.sequenceNo < b.sequenceNo) :
    actionsFromEvents format events =
      .ok ((calls.flatMap decisionsOf).map sealedAction).reverse := by
  have hsorted : events.insertionSort (fun a b => a.sequenceNo ≤ b.sequenceNo) = events := by
    apply List.Pairwise.insertionSort_eq
    exact hordered.imp fun hlt => le_of_lt hlt
  have hbodies : ∀ walk, events.foldlM (actionStep format) walk =
      (events.map RunEvent.toEventBody).foldlM (bodyStep format) walk := by
    intro walk
    rw [List.foldlM_map]
    rfl
  obtain ⟨tick, htick⟩ := @bodyStep_calls format calls (.null, [])
  rw [actionsFromEvents]
  simp only [hsorted, hbodies, hevents, List.foldlM_append, htick]
  simp [bind, Except.bind, htail, pure, Except.pure]

/-! ## Finding a decision again -/

/-- What a decision is found by. -/
def decisionKey (decision : Agent × AgentAction × MarketState) : ℤ × String :=
  (decision.2.2.tickSeq, decision.1.agentId)

theorem mem_decisionsOf {call : Call} {decision : Agent × AgentAction × MarketState}
    (h : decision ∈ decisionsOf call) : decision.2.2 = call.snapshot := by
  cases call with
  | feedClosing snapshot => simp [decisionsOf] at h
  | feed snapshot results =>
    obtain ⟨⟨agent, outcome⟩, -, hdecided⟩ := List.mem_filterMap.mp h
    cases outcome with
    | acted action =>
      obtain rfl := Option.some.inj hdecided
      rfl
    | noAction => simp [decidedBy] at hdecided
    | failed error message => simp [decidedBy] at hdecided

theorem decidedBy_agents (snapshot : MarketState) (results : List (Agent × Outcome)) :
    ((results.filterMap (decidedBy snapshot)).map fun d => d.1.agentId).Sublist
      ((results.map Prod.fst).map Agent.agentId) := by
  induction results with
  | nil => exact List.Sublist.slnil
  | cons result results ih =>
    obtain ⟨agent, outcome⟩ := result
    cases outcome with
    | acted action => exact ih.cons_cons agent.agentId
    | noAction => exact ih.cons agent.agentId
    | failed error message => exact ih.cons agent.agentId

/-- **No two decisions** are found by the same tick and agent. -/
theorem decisionKeys_nodup {agents : List Agent} {calls : List Call}
    (hids : (agents.map Agent.agentId).Nodup) (hgathers : ∀ call ∈ calls, call.Gathers agents)
    (hticks : (calls.map Call.snapshot).Pairwise fun a b => a.tickSeq < b.tickSeq) :
    ((calls.flatMap decisionsOf).map decisionKey).Nodup := by
  rw [List.map_flatMap, List.nodup_flatMap]
  constructor
  · intro call hcall
    have hgather := hgathers call hcall
    cases call with
    | feedClosing snapshot => exact List.nodup_nil
    | feed snapshot results =>
      apply List.Nodup.of_map Prod.snd
      rw [List.map_map]
      have hsub := decidedBy_agents snapshot results
      rw [show results.map Prod.fst = agents from hgather] at hsub
      exact hids.sublist hsub
  · rw [List.pairwise_map] at hticks
    refine hticks.imp fun {a b} hlt => ?_
    rw [Function.onFun, List.disjoint_left]
    intro key ha hb
    obtain ⟨first, hfirst, rfl⟩ := List.mem_map.mp ha
    obtain ⟨second, hsecond, hkey⟩ := List.mem_map.mp hb
    simp only [decisionKey, mem_decisionsOf hfirst, mem_decisionsOf hsecond, Prod.mk.injEq] at hkey
    omega

theorem eqv_int (a b : ℤ) : Decoded.eqv (.int a) (.int b) = true ↔ a = b := by
  simp [Decoded.eqv, Decoded.number, PyFloat.eqv]

/-- A number is a key, and no dictionary has it. -/
theorem key_of_number {v : Decoded} {x : PyFloat} (h : v.number = some x) : v.key = .ok none := by
  cases v <;> first | rfl | simp [Decoded.number] at h

theorem eqv_int_of_number {v : Decoded} {tick : ℤ} (h : v.number = some (.fin tick)) (n : ℤ) :
    Decoded.eqv (.int n) v = true ↔ n = tick := by
  cases v with
  | bool b =>
    simp only [Decoded.number, Option.some.injEq] at h
    simp [Decoded.eqv, Decoded.number, PyFloat.eqv, h]
  | int m =>
    rw [eqv_int]
    simp only [Decoded.number, Option.some.injEq, PyFloat.fin.injEq, Int.cast_inj] at h
    rw [h]
  | float x =>
    simp only [Decoded.number, Option.some.injEq] at h
    simp [Decoded.eqv, Decoded.number, PyFloat.eqv, h]
  | _ => simp [Decoded.number] at h

/-- **The entry** of a tick is its snapshot. -/
theorem entryFor_eq {states : List MarketState}
    (hticks : states.Pairwise fun a b => a.tickSeq < b.tickSeq) {state : MarketState}
    (hstate : state ∈ states) {tickSeq : Decoded} (htick : tickSeq.number = some (.fin state.tickSeq)) :
    entryFor states tickSeq = .ok (some state) := by
  have hnodup : (states.reverse.map MarketState.tickSeq).Nodup := by
    rw [List.map_reverse, List.nodup_reverse, List.Nodup, List.pairwise_map]
    exact hticks.imp fun hlt => ne_of_lt hlt
  have hfind : states.reverse.find? (fun other => PyFloat.fin state.tickSeq == .fin other.tickSeq) =
      some state := by
    apply find?_eq_of_key hnodup (List.mem_reverse.mpr hstate)
    intro other _
    rw [beq_iff_eq, PyFloat.fin.injEq, Int.cast_inj, eq_comm]
  simp only [entryFor, key_of_number htick, htick, bind, Except.bind, Option.bind_some, hfind]
  rfl

/-- **The action** of a tick and an agent is its decision's. -/
theorem actionFor_eq {decisions : List (Agent × AgentAction × MarketState)}
    (hnodup : (decisions.map decisionKey).Nodup) {decision : Agent × AgentAction × MarketState}
    (hdecision : decision ∈ decisions) {tickSeq : Decoded}
    (htick : tickSeq.number = some (.fin decision.2.2.tickSeq)) :
    actionFor (decisions.map sealedAction).reverse tickSeq (.str decision.1.agentId) =
      .ok (some decision.2.1.toJson.sorted) := by
  have hfind : decisions.reverse.find? (fun other =>
      (sealedAction other).1.1.eqv tickSeq &&
        (sealedAction other).1.2.eqv (.str decision.1.agentId)) = some decision := by
    apply find?_eq_of_key (by simpa using hnodup) (List.mem_reverse.mpr hdecision)
    intro other _
    rw [Bool.and_eq_true, sealedAction, eqv_int_of_number htick, Decoded.eqv_str, beq_iff_eq,
      decisionKey, decisionKey, Prod.mk.injEq]
  have hkey : Decoded.key (.str decision.1.agentId) = .ok (some decision.1.agentId) := rfl
  rw [← List.map_reverse, actionFor, List.find?_map]
  simp only [key_of_number htick, hkey, bind, Except.bind, Function.comp_def, hfind]
  rfl

end Veridex.Checks
