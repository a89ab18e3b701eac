import Veridex.Competition.LogShape
import Veridex.Runtime.LiveLabels
import Veridex.Scoring.Ranking

/-!
# The leaderboard of a competition (`api/router.py`, lines 308-342)

The board is read off the `SCORE_UPDATE` events of the log, `score_run` ranks the score rows. Both hold the
same numbers of an agent (`scoreUpdate_shows`). They differ in two ways: an agent without score rows has
no event, and agents of one mean stand by their names, where `score_run` has four more criteria.
-/

namespace Veridex.Api

open Veridex.Py Veridex.Lib Veridex.Runtime Veridex.Law Veridex.Scoring Veridex.Checks
open Veridex.Competition

/-- `CompetitionLeaderboardRow`. -/
structure CompetitionLeaderboardRow where
  rank : ℕ
  agentId : String
  totalClvBps : ℤ
  meanClvBps : Option PyFloat
  validCount : ℤ
  proofMode : Option String
  deriving DecidableEq, Repr

section

variable (format : Json.FloatFormat PyFloat)

/-- `_sort_key`. -/
def sortKey (event : CompetitionEvent) : PyFloat × String :=
  (((field event.payload "mean_clv_bps").number.getD .negInf).neg,
    Decoded.strOf format ((event.payload.lookup "agent_id").getD (.str "")))

/-- `a < b`, of two keys. -/
def keyLt (a b : PyFloat × String) : Bool :=
  if a.1.eqv b.1 then a.2 < b.2 else a.1.lt b.1

/-- A number that may be absent. -/
def optionalFloat (v : Decoded) : Except PyExc (Option PyFloat) :=
  match v, v.number with
  | .null, _ => .ok none
  | _, some x => .ok (some x)
  | _, none => .error ⟨.valueError, "Input should be a valid number"⟩

/-- A text that may be absent. -/
def optionalText : Decoded → Except PyExc (Option String)
  | .null => .ok none
  | .str s => .ok (some s)
  | _ => .error ⟨.valueError, "Input should be a valid string"⟩

/-- The row of an event. -/
def leaderboardRow (rank : ℕ) (event : CompetitionEvent) : Except PyExc CompetitionLeaderboardRow := do
  let p := event.payload
  let totalClvBps ← Decoded.toInt ((p.lookup "total_clv_bps").getD (.int 0))
  let validCount ← Decoded.toInt ((p.lookup "valid_count").getD (.int 0))
  return {
    rank := rank
    agentId := Decoded.strOf format ((p.lookup "agent_id").getD (.str ""))
    totalClvBps := totalClvBps
    meanClvBps := ← optionalFloat (field p "mean_clv_bps")
    validCount := validCount
    proofMode := ← optionalText (field p "proof_mode") }

/-- `_derive_leaderboard`. -/
def deriveLeaderboard (events : List CompetitionEvent) :
    Except PyExc (List CompetitionLeaderboardRow) :=
  let scoreUpdates := events.filter fun event => event.eventType = .scoreUpdate
  let sorted := scoreUpdates.insertionSort fun a b => keyLt (sortKey format b) (sortKey format a) = false
  (sorted.zipIdx 1).mapM fun (event, rank) => leaderboardRow format rank event

end

/-! ## What a row shows -/

/-- What both rankings hold of an agent. -/
structure Score where
  agentId : String
  totalClvBps : ℤ
  meanClvBps : Option PyFloat
  validCount : ℤ
  deriving DecidableEq, Repr

def CompetitionLeaderboardRow.score (row : CompetitionLeaderboardRow) : Score :=
  ⟨row.agentId, row.totalClvBps, row.meanClvBps, row.validCount⟩

/-- What a row of the metric stack holds of its agent. -/
def scoreOf (m : Metrics) : Score :=
  ⟨m.agentId, m.totalClvBps, m.avgClvBps.map .fin, m.validCount⟩

/-- The order of the board: the mean, the highest first and none last, then the agent. -/
def boardKey (m : Metrics) : (ℕ ×ₗ ℚ) ×ₗ String :=
  toLex (noneLast (m.avgClvBps.map (-·)), m.agentId)

/-- A payload shows the metrics of an agent. -/
structure ShowsMetrics (payload : Params) (m : Metrics) : Prop where
  agent : payload.lookup "agent_id" = some (.str m.agentId)
  total : payload.lookup "total_clv_bps" = some (.int m.totalClvBps)
  mean : field payload "mean_clv_bps" = meanJson m.avgClvBps
  valid : payload.lookup "valid_count" = some (.int m.validCount)
  mode : field payload "proof_mode" = .null ∨ ∃ mode, field payload "proof_mode" = .str mode

section Shown

variable {format : Json.FloatFormat PyFloat} {event event' : CompetitionEvent} {m m' : Metrics}

theorem ShowsMetrics.sortKey (h : ShowsMetrics event.payload m) :
    sortKey format event = (((m.avgClvBps.map PyFloat.fin).getD .negInf).neg, m.agentId) := by
  rw [Api.sortKey, h.agent, h.mean]
  cases m.avgClvBps with
  | none => rfl
  | some q => rfl

variable (format) in
theorem ShowsMetrics.row (h : ShowsMetrics event.payload m) (rank : ℕ) :
    ∃ row, leaderboardRow format rank event = .ok row ∧ row.rank = rank ∧ row.score = scoreOf m := by
  have hmean : optionalFloat (field event.payload "mean_clv_bps") = .ok (m.avgClvBps.map .fin) := by
    rw [h.mean]
    cases m.avgClvBps with
    | none => rfl
    | some q => rfl
  obtain ⟨mode, hmode⟩ : ∃ mode, optionalText (field event.payload "proof_mode") = .ok mode := by
    rcases h.mode with hnull | ⟨mode, hmode⟩
    · exact ⟨none, by rw [hnull]; rfl⟩
    · exact ⟨some mode, by rw [hmode]; rfl⟩
  simp only [leaderboardRow, h.agent, h.total, h.valid, hmean, hmode]
  exact ⟨_, rfl, rfl, rfl⟩

/-- The keys of the events are in the order of the board. -/
theorem keyLt_sortKey (h : ShowsMetrics event.payload m) (h' : ShowsMetrics event'.payload m') :
    keyLt (sortKey format event') (sortKey format event) = false ↔ boardKey m ≤ boardKey m' := by
  rw [h.sortKey, h'.sortKey, ← not_lt, ← Bool.not_eq_true, not_iff_not]
  rw [boardKey, boardKey, Prod.Lex.toLex_lt_toLex]
  cases m.avgClvBps with
  | none =>
    cases m'.avgClvBps with
    | none => simp [keyLt, PyFloat.neg, PyFloat.eqv, noneLast]
    | some q => simp [keyLt, PyFloat.neg, PyFloat.eqv, PyFloat.lt, noneLast, Prod.Lex.toLex_lt_toLex]
  | some p =>
    cases m'.avgClvBps with
    | none => simp [keyLt, PyFloat.neg, PyFloat.eqv, PyFloat.lt, noneLast, Prod.Lex.toLex_lt_toLex]
    | some q =>
      by_cases heq : q = p
      · simp [keyLt, PyFloat.neg, PyFloat.eqv, noneLast, heq]
      · simp [keyLt, PyFloat.neg, PyFloat.eqv, PyFloat.lt, noneLast, Prod.Lex.toLex_lt_toLex, heq]

end Shown

/-! ## What the events show -/

section Updates

variable {rows : List Params} {keyed : List KeyedRow} {own : List KeyedRow} {agentId : String}
  {proofModeMap : Params} {derived : Derived}

/-- An agent's keyed rows, as they are read. -/
theorem read_of_keyed (hkeyed : rows.mapM keyedRow = .ok keyed) (agentId : String) :
    (((keyed.filter (·.agentId = agentId)).mergeSort fun a b => a.tickSeq ≤ b.tickSeq).map
      fun entry => readRow entry.row).Perm (Exact.rowsOf (rows.map readRow) agentId) := by
  have hrows : Exact.rowsOf (rows.map readRow) agentId = (rowsOf rows agentId).map readRow := by
    rw [Exact.rowsOf, List.filter_map, rowsOf]
    congr 1
    refine List.filter_congr fun row hrow => ?_
    obtain ⟨entry, -, hentry⟩ := exists_of_mapM_ok hkeyed hrow
    simp only [Function.comp_apply, readRow, (keyedRow_ok hentry).2, Except.toOption, Option.getD_some,
      Option.some.injEq]
  rw [hrows]
  have hperm := (rows_of_keyed hkeyed agentId).map readRow
  rwa [List.map_map] at hperm

/-- The agent's count of valid rows, where validity is a bool. -/
theorem countP_valid {valid : List Decoded}
    (hvalid : ∀ entry ∈ own, ∃ b, entry.row.lookup "valid" = some (.bool b))
    (h : (own.mapM fun entry => Decoded.item (.obj entry.row) (.str "valid")) = .ok valid) :
    valid.countP (·.truthy) = ((own.map fun entry => readRow entry.row).filter
      Exact.ScoreRow.valid).length := by
  have hall := mapM_eq_ok.mp h
  clear h
  induction hall with
  | nil => rfl
  | @cons entry value rest values hvalue _ ih =>
    obtain ⟨b, hb⟩ := hvalid entry List.mem_cons_self
    obtain ⟨name, hname, hlookup⟩ := Decoded.item_obj_ok.mp hvalue
    cases hname
    obtain rfl := Option.some.inj (hlookup.symm.trans hb)
    have hread : (readRow entry.row).valid = b := by
      rw [readRow, field, hb]
      rfl
    rw [List.countP_cons, ih fun entry hentry => hvalid entry (List.mem_cons_of_mem _ hentry),
      List.map_cons, List.filter_cons, hread]
    cases b with
    | false => rfl
    | true => rfl

/-- **The score of an agent** in the log is the one of the metric stack. -/
theorem scoreUpdate_shows {rows : List Exact.ScoreRow} {proofMode : String → String}
    (hread : (own.map fun entry => readRow entry.row).Perm (Exact.rowsOf rows agentId))
    (hvalid : ∀ entry ∈ own, ∃ b, entry.row.lookup "valid" = some (.bool b))
    (hmode : field proofModeMap agentId = .null ∨ ∃ mode, field proofModeMap agentId = .str mode)
    (h : scoreUpdate proofModeMap agentId own = .ok derived) :
    derived.eventType = .scoreUpdate ∧
      ShowsMetrics derived.payload (Exact.metricsOf proofMode rows agentId) := by
  obtain ⟨valid, hvalues, h⟩ := bind_eq_ok.mp h
  obtain ⟨meanClv, hmean, h⟩ := bind_eq_ok.mp h
  obtain ⟨meanWindowClv, -, h⟩ := bind_eq_ok.mp h
  obtain rfl := Except.ok.inj h
  have hclvs : ((own.filter (isScored ·.row)).map fun entry => (intValue entry.row "clv_bps").getD 0).Perm
      ((Exact.scoredRows (Exact.rowsOf rows agentId)).map Exact.ScoreRow.clv) := by
    have hperm := ((hread.filter Exact.ScoreRow.isScored).trans (sortBy_perm Exact.ScoreRow.tickSeq
      ((Exact.rowsOf rows agentId).filter Exact.ScoreRow.isScored)).symm).map Exact.ScoreRow.clv
    rw [List.filter_map, List.map_map] at hperm
    exact hperm
  have htotal := hclvs.sum_eq
  have hlength := hclvs.length_eq
  rw [List.length_map (f := Exact.ScoreRow.clv)] at hlength
  have hcount := (hread.filter Exact.ScoreRow.valid).length_eq
  refine ⟨rfl, rfl, ?_, ?_, ?_, hmode⟩
  · exact congrArg (fun total : ℤ => some (Json.int total)) htotal
  · have haverage := average_exact hmean
    rw [htotal, hlength] at haverage
    exact congrArg meanJson haverage
  · rw [countP_valid hvalid hvalues, hcount]
    rfl

end Updates

/-! ## The events of the log -/

section Log

variable {format : Json.FloatFormat PyFloat} {sha256 : List Char → String} {result : RunResult}
  {competitionMeta : CompetitionMeta} {log : List CompetitionEvent}

theorem evidence_no_score {competitionId runId : String} {clock : ℤ} {runEvents : List RunEvent}
    {events : List CompetitionEvent}
    (h : evidenceEvents format sha256 competitionId runId clock runEvents = .ok events) :
    ∀ event ∈ events, event.eventType ≠ .scoreUpdate := by
  induction runEvents generalizing clock events with
  | nil =>
    obtain rfl := Except.ok.inj h
    exact fun event hevent => (List.not_mem_nil hevent).elim
  | cons runEvent rest ih =>
    obtain ⟨⟨event, clock'⟩, hevent, h⟩ := bind_eq_ok.mp h
    obtain ⟨others, hothers, h⟩ := bind_eq_ok.mp h
    obtain rfl := Except.ok.inj h
    intro event' hmem
    rcases List.mem_cons.mp hmem with rfl | hmem
    · obtain ⟨ts, -, hevent⟩ := bind_eq_ok.mp hevent
      obtain ⟨⟨eventType, payload⟩, hpayload, hevent⟩ := bind_eq_ok.mp hevent
      obtain ⟨rfl, -⟩ := Prod.mk.inj (Except.ok.inj hevent)
      unfold evidencePayload at hpayload
      split at hpayload
      iterate 3
        · obtain ⟨_, -, hpayload⟩ := bind_eq_ok.mp hpayload
          obtain ⟨rfl, -⟩ := Prod.mk.inj (Except.ok.inj hpayload)
          exact nofun
      · obtain ⟨config, -, hpayload⟩ := bind_eq_ok.mp hpayload
        split at hpayload
        · obtain ⟨rfl, -⟩ := Prod.mk.inj (Except.ok.inj hpayload)
          exact nofun
        · exact nomatch hpayload
    · exact ih hothers event' hmem

/-- The score events of a numbered tail. -/
theorem payloads_numbered (competitionId runId : String) (baseTs derivedSeq : ℤ) (tail : List Derived) :
    ((numbered format sha256 competitionId runId baseTs derivedSeq tail).filter
        fun event => event.eventType = .scoreUpdate).map (·.payload) =
      (tail.filter fun derived => derived.eventType = .scoreUpdate).map (·.payload) := by
  have hmap : (numbered format sha256 competitionId runId baseTs derivedSeq tail).map
      (fun event => (event.eventType, event.payload)) =
        tail.map fun derived => (derived.eventType, derived.payload) := by
    refine map_mapIdx_of_const ?_ tail
    intro i derived
    rfl
  have hfilter := congrArg (fun pairs : List (Competition.EventType × Params) =>
    (pairs.filter fun pair => pair.1 = .scoreUpdate).map Prod.snd) hmap
  simpa only [List.filter_map, List.map_map, Function.comp_def] using hfilter

/-- **The score events** of a log are those of the agents that have rows. -/
theorem scoreUpdates_of_log (h : buildEventLog format sha256 result competitionMeta = .ok log) :
    ∃ keyed updates, result.scoreRows.mapM keyedRow = .ok keyed ∧
      ((rowsOfAgents keyed).mapM fun (agentId, own) => scoreUpdate result.proofModeMap agentId own) =
        .ok updates ∧
      (log.filter fun event => event.eventType = .scoreUpdate).map (·.payload) =
        updates.map (·.payload) := by
  obtain ⟨evidence, hevidence, h⟩ := bind_eq_ok.mp h
  obtain ⟨tail, htail, h⟩ := bind_eq_ok.mp h
  obtain rfl := Except.ok.inj h
  obtain ⟨keyed, hkeyed, htail⟩ := bind_eq_ok.mp htail
  obtain ⟨laws, hlaws, htail⟩ := bind_eq_ok.mp htail
  obtain ⟨updates, hupdates, htail⟩ := bind_eq_ok.mp htail
  obtain rfl := Except.ok.inj htail
  refine ⟨keyed, updates, hkeyed, hupdates, ?_⟩
  have hnone : evidence.filter (fun event => event.eventType = .scoreUpdate) = [] :=
    List.filter_eq_nil_iff.mpr fun event hevent => by simpa using evidence_no_score hevidence event hevent
  have hlaw : laws.filter (fun derived => derived.eventType = .scoreUpdate) = [] := by
    refine List.filter_eq_nil_iff.mpr fun derived hderived => ?_
    obtain ⟨entry, -, hentry⟩ := exists_of_mem_mapM hlaws hderived
    obtain ⟨_, -, hentry⟩ := bind_eq_ok.mp hentry
    obtain ⟨_, -, hentry⟩ := bind_eq_ok.mp hentry
    obtain ⟨_, -, hentry⟩ := bind_eq_ok.mp hentry
    obtain ⟨_, -, hentry⟩ := bind_eq_ok.mp hentry
    rw [← Except.ok.inj hentry]
    simp
  have hall : updates.filter (fun derived => derived.eventType = .scoreUpdate) = updates := by
    refine List.filter_eq_self.mpr fun derived hderived => ?_
    obtain ⟨entry, -, hentry⟩ := exists_of_mem_mapM hupdates hderived
    obtain ⟨_, -, hentry⟩ := bind_eq_ok.mp hentry
    obtain ⟨_, -, hentry⟩ := bind_eq_ok.mp hentry
    obtain ⟨_, -, hentry⟩ := bind_eq_ok.mp hentry
    rw [← Except.ok.inj hentry]
    simp
  have hstarted : (buildCompetitionStartedEvent format sha256 competitionMeta.competitionId
      result.runId result.sourceMode result.agentIds competitionMeta.eventTs).eventType =
        .competitionStarted := rfl
  rw [List.cons_append, List.filter_cons_of_neg (by simp [hstarted]), List.filter_append,
    List.map_append, payloads_numbered, hnone, List.map_nil, List.nil_append, List.filter_append,
    List.filter_append, hlaw, hall, List.nil_append, List.filter_cons_of_neg (by simp),
    List.filter_cons_of_neg (by simp), List.filter_nil, List.append_nil]

end Log

/-! ## The board -/

section Board

variable {format : Json.FloatFormat PyFloat} {sha256 : List Char → String} {result : RunResult}
  {competitionMeta : CompetitionMeta} {log : List CompetitionEvent} {agentIds : List String}
  {table : List Metrics}

variable (format) in
/-- Events that show the metrics of agents are rows with their scores. -/
theorem rows_of_events {events : List CompetitionEvent} {ms : List Metrics}
    (h : List.Forall₂ (fun event m => ShowsMetrics event.payload m) events ms) (first : ℕ) :
    ∃ board, ((events.zipIdx first).mapM fun (event, rank) => leaderboardRow format rank event) =
        .ok board ∧ board.map CompetitionLeaderboardRow.score = ms.map scoreOf ∧
      board.map (·.rank) = List.range' first board.length := by
  induction h generalizing first with
  | nil => exact ⟨[], rfl, rfl, rfl⟩
  | @cons event m events ms hshows _ ih =>
    obtain ⟨row, hrow, hrank, hscore⟩ := hshows.row format first
    obtain ⟨board, hboard, hscores, hranks⟩ := ih (first + 1)
    refine ⟨row :: board, ?_, ?_, ?_⟩
    · rw [List.zipIdx_cons, List.mapM_cons]
      exact bind_eq_ok.mpr ⟨row, hrow, bind_eq_ok.mpr ⟨board, hboard, rfl⟩⟩
    · rw [List.map_cons, List.map_cons, hscore, hscores]
    · rw [List.map_cons, hrank, hranks, List.length_cons, List.range'_succ]

/-- The agent has a score row. -/
def HasRow (result : RunResult) (agentId : String) : Prop :=
  agentId ∈ (result.scoreRows.map readRow).map Exact.ScoreRow.agentId

instance (result : RunResult) : DecidablePred (HasRow result) := fun agentId =>
  inferInstanceAs (Decidable (agentId ∈ (result.scoreRows.map readRow).map Exact.ScoreRow.agentId))

/-- **What the board is**, of the table of the run: the agents that have rows with the table's scores,
ranked by their mean and by their names; the table has agents of different means in that order too. -/
structure IsBoard (result : RunResult) (table : List Metrics)
    (board : List CompetitionLeaderboardRow) : Prop where
  scores : board.map CompetitionLeaderboardRow.score =
    (sortBy boardKey (table.filter fun m => HasRow result m.agentId)).map scoreOf
  ranks : board.map (·.rank) = List.range' 1 board.length
  order : board.Pairwise fun row row' => row.meanClvBps ≠ row'.meanClvBps →
    [row.agentId, row'.agentId].Sublist (table.map Metrics.agentId)

/-- A row without its rank. -/
def unranked (m : Metrics) : Metrics := { m with rank := 0 }

/-- The metrics of the agents that have rows, as the events have them. -/
theorem unranked_table (agentIds : List String) {rowAgents : List String} {proofMode : String → String}
    {rows : List Exact.ScoreRow} (hnodup : rowAgents.Nodup)
    (hagents : ∀ agentId, agentId ∈ rowAgents ↔ agentId ∈ rows.map Exact.ScoreRow.agentId) :
    (((Exact.scoreRun agentIds proofMode rows).filter fun m =>
        m.agentId ∈ rows.map Exact.ScoreRow.agentId).map unranked).Perm
      (rowAgents.map (Exact.metricsOf proofMode rows)) := by
  have htable : ((Exact.scoreRun agentIds proofMode rows).map unranked).Perm
      ((Exact.agents agentIds rows).map (Exact.metricsOf proofMode rows)) := by
    have hmap : (Exact.scoreRun agentIds proofMode rows).map unranked =
        (sortBy rankKey ((Exact.agents agentIds rows).map (Exact.metricsOf proofMode rows))).map
          unranked := by
      rw [Exact.scoreRun_eq, Exact.ranked_eq]
      refine map_mapIdx_of_const ?_ _
      intro i m
      rfl
    rw [hmap]
    have hperm := (sortBy_perm rankKey ((Exact.agents agentIds rows).map
      (Exact.metricsOf proofMode rows))).map unranked
    rwa [List.map_map] at hperm
  have hfilter := htable.filter fun m => m.agentId ∈ rows.map Exact.ScoreRow.agentId
  rw [List.filter_map, List.filter_map] at hfilter
  refine hfilter.trans (List.Perm.map _ ?_)
  refine (List.perm_ext_iff_of_nodup (Exact.nodup_agents.filter _) hnodup).mpr fun agentId => ?_
  rw [List.mem_filter, Exact.mem_agents, hagents]
  exact ⟨fun h => of_decide_eq_true h.2, fun h => ⟨.inr h, decide_eq_true h⟩⟩

/-- Agents that are apart have keys that are apart. -/
theorem nodup_boardKeys {rowAgents : List String} {proofMode : String → String}
    {rows : List Exact.ScoreRow} (hnodup : rowAgents.Nodup) :
    ((rowAgents.map (Exact.metricsOf proofMode rows)).map boardKey).Nodup := by
  rw [List.map_map]
  refine List.Nodup.map ?_ hnodup
  intro agentId agentId' h
  exact (congrArg (fun key => (ofLex key).2) h :)

/-- The scores of the agents with rows, in the order of the board. -/
theorem scores_of_table (agentIds : List String) {rowAgents : List String}
    (proofMode : String → String) {rows : List Exact.ScoreRow} (hnodup : rowAgents.Nodup)
    (hagents : ∀ agentId, agentId ∈ rowAgents ↔ agentId ∈ rows.map Exact.ScoreRow.agentId) :
    (sortBy boardKey (rowAgents.map (Exact.metricsOf proofMode rows))).map scoreOf =
      (sortBy boardKey ((Exact.scoreRun agentIds proofMode rows).filter fun m =>
        m.agentId ∈ rows.map Exact.ScoreRow.agentId)).map scoreOf := by
  rw [sortBy_eq_of_perm (nodup_boardKeys hnodup)
    (unranked_table agentIds hnodup hagents).symm, sortBy,
    ← List.map_insertionSort (fun a b => boardKey a ≤ boardKey b) (fun a b => boardKey a ≤ boardKey b)
      unranked _ (fun _ _ _ _ => Iff.rfl), List.map_map]
  rfl

theorem noneLast_neg_inj {a b : Option ℚ} (h : noneLast (a.map (-·)) = noneLast (b.map (-·))) :
    a = b := by
  cases a with
  | none =>
    cases b with
    | none => rfl
    | some q => simp [noneLast] at h
  | some p =>
    cases b with
    | none => simp [noneLast] at h
    | some q => simpa [noneLast] using h

/-- The table has agents of different means in the order of the board. -/
theorem order_of_table {rows : List Exact.ScoreRow} (htable : Exact.IsTable agentIds rows table)
    (p : Metrics → Bool) : (sortBy boardKey (table.filter p)).Pairwise fun m m' =>
      (scoreOf m).meanClvBps ≠ (scoreOf m').meanClvBps →
        [m.agentId, m'.agentId].Sublist (table.map Metrics.agentId) := by
  refine (List.Pairwise.imp_of_mem ?_ (sortBy_pairwise boardKey (table.filter p)))
  intro m m' hm hm' hle hne
  have hmem : m ∈ table := List.mem_of_mem_filter ((sortBy_perm boardKey _).mem_iff.mp hm)
  have hmem' : m' ∈ table := List.mem_of_mem_filter ((sortBy_perm boardKey _).mem_iff.mp hm')
  have hmean : noneLast (m.avgClvBps.map (-·)) ≠ noneLast (m'.avgClvBps.map (-·)) := by
    intro h
    rw [scoreOf, scoreOf, noneLast_neg_inj h] at hne
    exact hne rfl
  have hlt : rankKey m < rankKey m' := by
    rw [boardKey, boardKey, Prod.Lex.toLex_le_toLex] at hle
    rw [rankKey, rankKey, Prod.Lex.toLex_lt_toLex]
    exact .inl (hle.resolve_right fun h => hmean h.1)
  exact (pair_sublist htable.ordered hmem hmem' hlt).map Metrics.agentId

/-- What the seal says of its rows: ints for ticks, and bools for validity. -/
structure SealedRows (result : RunResult) : Prop where
  ticks : IntTicks result.scoreRows
  valid : ∀ row ∈ result.scoreRows, ∃ b, row.lookup "valid" = some (.bool b)
  modes : ∀ agentId, field result.proofModeMap agentId = .null ∨
    ∃ mode, field result.proofModeMap agentId = .str mode

theorem sealedRows_of_finalize {run run' : CompetitionRun} {window window' : Option RunWindow}
    (h : run.finalize format sha256 window (.ok ()) = (.ok result, run', window')) :
    SealedRows result := by
  have hresult := (finalize_ok h).1
  have hrows := (result_parts hresult).2.1
  obtain ⟨evidenceHash, -, hparts⟩ := bind_eq_ok.mp hresult
  obtain ⟨rows, -, hparts⟩ := bind_eq_ok.mp hparts
  refine ⟨fun row hrow _ => ?_, fun row hrow => ?_, fun agentId => ?_⟩
  · obtain ⟨decision, -, hrow⟩ := exists_of_mem_mapM hrows hrow
    obtain ⟨verdict, -, hshows, -⟩ := scoreRow_ok hrow
    exact ⟨_, hshows.tick⟩
  · obtain ⟨decision, -, hrow⟩ := exists_of_mem_mapM hrows hrow
    obtain ⟨verdict, -, hshows, -⟩ := scoreRow_ok hrow
    have hvalid := hshows.valid
    rw [field] at hvalid
    cases hlookup : row.lookup "valid" with
    | none => simp [hlookup] at hvalid
    | some found =>
      rw [hlookup, Option.getD_some] at hvalid
      exact ⟨verdict.valid, by rw [hvalid]⟩
  · rw [← Except.ok.inj hparts, field]
    cases hlookup : (Json.dictOf ((run.sealWindow format window).agents.map fun agent =>
        (agent.agentId, Json.str agent.proofMode))).lookup agentId with
    | none => exact .inl rfl
    | some found =>
      obtain ⟨agent, -, hagent⟩ := List.mem_map.mp (Json.mem_dictOf (mem_of_lookup hlookup))
      obtain ⟨-, rfl⟩ := Prod.mk.inj hagent
      exact .inr ⟨agent.proofMode, rfl⟩

/-- **The board** of a log that is built, of rows that were sealed. -/
theorem board_of_log (hsealed : SealedRows result) (htable : scoreRun result = .ok table)
    (hlog : buildEventLog format sha256 result competitionMeta = .ok log) :
    ∃ board, deriveLeaderboard format log = .ok board ∧ IsBoard result table board := by
  obtain ⟨keyed, updates, hkeyed, hupdates, hpayloads⟩ := scoreUpdates_of_log hlog
  have hexact := scoreRun_exact hsealed.ticks htable
  generalize hrows : result.scoreRows.map readRow = rows at hexact
  -- the agents of the events, and what the events show of them
  let rowAgents := (keyed.map (·.agentId)).eraseDups.mergeSort fun a b => a ≤ b
  have hids : keyed.map (·.agentId) = rows.map Exact.ScoreRow.agentId := by
    rw [← hrows, List.map_map, ← List.forall₂_eq_eq_eq, List.forall₂_map_left_iff,
      List.forall₂_map_right_iff]
    refine (mapM_eq_ok.mp hkeyed).flip.imp fun entry row hentry => ?_
    simp only [Function.comp_apply, readRow, (keyedRow_ok hentry).2, Except.toOption, Option.getD_some]
  have hnodup : rowAgents.Nodup := (List.mergeSort_perm _ _).nodup_iff.mpr (nodup_eraseDups _)
  have hagents : ∀ agentId, agentId ∈ rowAgents ↔ agentId ∈ rows.map Exact.ScoreRow.agentId := by
    intro agentId
    rw [List.mem_mergeSort, List.mem_eraseDups, hids]
  have hshown : List.Forall₂ (fun event m => ShowsMetrics event.payload m)
      (log.filter fun event => event.eventType = .scoreUpdate)
      (rowAgents.map (Exact.metricsOf (proofModeOf result) rows)) := by
    have hall := mapM_eq_ok.mp hupdates
    rw [rowsOfAgents, List.forall₂_map_left_iff] at hall
    have hshows : List.Forall₂ (fun payload agentId =>
        ShowsMetrics payload (Exact.metricsOf (proofModeOf result) rows agentId))
        (updates.map (·.payload)) rowAgents := by
      rw [List.forall₂_map_left_iff]
      refine hall.flip.imp fun derived agentId hderived => ?_
      refine (scoreUpdate_shows (hrows ▸ read_of_keyed hkeyed agentId) ?_ (hsealed.modes agentId)
        hderived).2
      intro entry hentry
      obtain ⟨row, hrow, hentry⟩ := exists_of_mem_mapM hkeyed
        (List.mem_of_mem_filter (List.mem_mergeSort.mp hentry))
      exact (keyedRow_ok hentry).1 ▸ hsealed.valid row hrow
    rw [← hpayloads, List.forall₂_map_left_iff] at hshows
    rwa [List.forall₂_map_right_iff]
  -- the events, in the order of the board
  have hsorted := forall₂_insertionSort
    (r := fun a b => keyLt (sortKey format b) (sortKey format a) = false)
    (s := fun m m' => boardKey m ≤ boardKey m')
    (fun _ _ _ _ h h' => keyLt_sortKey h h') hshown
  obtain ⟨board, hboard, hscores, hranks⟩ := rows_of_events format hsorted 1
  have hscores' : board.map CompetitionLeaderboardRow.score =
      (sortBy boardKey (table.filter fun m => HasRow result m.agentId)).map scoreOf := by
    subst hrows
    rw [hscores, hexact]
    exact scores_of_table _ _ hnodup hagents
  refine ⟨board, hboard, hscores', hranks, ?_⟩
  have horder := order_of_table (hexact ▸ Exact.isTable_scoreRun)
    fun m => decide (HasRow result m.agentId)
  have hpairs : ((sortBy boardKey (table.filter fun m => HasRow result m.agentId)).map scoreOf).Pairwise
      fun score score' => score.meanClvBps ≠ score'.meanClvBps →
        [score.agentId, score'.agentId].Sublist (table.map Metrics.agentId) :=
    List.pairwise_map.mpr horder
  rw [← hscores', List.pairwise_map] at hpairs
  exact hpairs

end Board

/-! ## Two boards of one run -/

section Tied

/-- An agent. -/
def racer (agentId : String) : Agent := { agentId := agentId, proofMode := "live" }

/-- The first acts once, the second twice, and the third never. -/
def racedCalls : List Runtime.Call := [
  .feed pricedTick [(racer "a", .acted flaggedOver), (racer "b", .acted flaggedOver),
    (racer "c", .noAction)],
  .feed pricedTick [(racer "a", .noAction), (racer "b", .acted flaggedOver), (racer "c", .noAction)],
  .feedClosing pricedClose]

def racedStart : CompetitionRun :=
  CompetitionRun.start [racer "a", racer "b", racer "c"] .live "r" false

/-- The run, as far as its close. -/
def racedRun : CompetitionRun :=
  let first := (racedStart.tick ratioFormat pricedTick).record ratioFormat pricedTick
    (racer "a", .acted flaggedOver)
  let first := (first.record ratioFormat pricedTick (racer "b", .acted flaggedOver)).record ratioFormat
    pricedTick (racer "c", .noAction)
  let second := (first.tick ratioFormat pricedTick).record ratioFormat pricedTick (racer "a", .noAction)
  let second := (second.record ratioFormat pricedTick (racer "b", .acted flaggedOver)).record ratioFormat
    pricedTick (racer "c", .noAction)
  second.tick ratioFormat pricedClose

theorem racedRun_calls : racedStart.calls ratioFormat racedCalls = .ok racedRun := rfl

/-- What is read of its rows. -/
def racedRows : List Exact.ScoreRow :=
  [⟨"a", 0, true, some 600, none, none⟩, ⟨"b", 0, true, some 600, none, none⟩,
    ⟨"b", 0, true, some 600, none, none⟩]

theorem racedRow (evidenceHash : String) (agentId : String) : ∃ row,
    scoreRow ratioFormat String.ofList racedRun none evidenceHash
        (racer agentId, flaggedOver, pricedTick) = .ok row ∧
      readRow row = ⟨agentId, 0, true, some 600, none, none⟩ ∧ agentIdOf row = .ok agentId ∧
      scoredRows [row] = .ok [⟨.fin 0, 600, none⟩] ∧
      scoredRows [row, row] = .ok [⟨.fin 0, 600, none⟩, ⟨.fin 0, 600, none⟩] :=
  ⟨_, rfl, rfl, rfl, rfl, rfl⟩

/-- The mean of that one value. -/
theorem mean_of_flagged {count : ℕ} (hcount : count ≠ 0) :
    ((List.replicate count (600 : ℤ)).sum : ℚ) / count = 600 := by
  have hcast : (count : ℚ) ≠ 0 := Nat.cast_ne_zero.mpr hcount
  rw [List.sum_replicate, nsmul_eq_mul, Int.cast_mul, Int.cast_natCast, mul_div_cancel_left₀ _ hcast]
  rfl

/-- Metrics of rows of that one value. -/
theorem metrics_of_flagged (agentId proofMode : String) (rows : List Params) (count : ℕ)
    (hscored : scoredRows rows = .ok (List.replicate count ⟨.fin 0, 600, none⟩))
    (hwindow : rows.filterMap (fun row => intValue row "window_clv_bps") = []) :
    ∃ metrics, agentMetrics agentId proofMode rows = .ok metrics := by
  have hfits : asFloat 600 = .ok 600 := asFloat_small (by norm_num)
  have haverage : ∃ mean, average (List.replicate count (600 : ℤ)).sum count = .ok mean := by
    rw [average]
    by_cases hcount : count = 0
    · exact ⟨none, if_pos hcount⟩
    · rw [if_neg hcount, mean_of_flagged hcount, hfits]
      exact ⟨some 600, rfl⟩
  have hdrawdown (cumulative : ℤ) (worst : ℚ) (hcumulative : 0 ≤ cumulative) :
      ∃ drawdown, drawdownFrom cumulative cumulative worst (List.replicate count 600) = .ok drawdown := by
    clear hscored haverage
    induction count generalizing cumulative worst with
    | zero => exact ⟨worst, rfl⟩
    | succ count ih =>
      have hpeak : max cumulative (cumulative + 600) = cumulative + 600 := by omega
      have hzero : asFloat ((cumulative + 600 - (cumulative + 600) : ℤ) : ℚ) = .ok 0 := by
        rw [sub_self, Int.cast_zero]
        exact asFloat_small (by norm_num)
      rw [List.replicate_succ, drawdownFrom]
      simp only [hpeak, hzero]
      exact ih (cumulative + 600) _ (by omega)
  obtain ⟨mean, hmean⟩ := haverage
  obtain ⟨drawdown, hdrawdown⟩ := hdrawdown 0 0 le_rfl
  have hnone : average 0 0 = .ok none := rfl
  simp only [agentMetrics, hscored, hwindow, bind, Except.bind, List.map_replicate,
    List.length_replicate, hmean, List.sum_nil, List.length_nil, hnone, maxDrawdown, hdrawdown]
  exact ⟨_, rfl⟩

/-- The run seals, its rows are those, and both rankings are there. -/
theorem racedRun_seals : ∃ result table, (racedRun.finalize ratioFormat String.ofList none (.ok ())).1 =
      .ok result ∧ result.agentIds = ["a", "b", "c"] ∧ result.scoreRows.map readRow = racedRows ∧
    scoreRun result = .ok table ∧ MeansFit result.scoreRows := by
  have hconsistent : racedRun.Consistent :=
    (CompetitionRun.Consistent.start _ .live "r" false).calls racedRun_calls
  obtain ⟨evidenceHash, hhash⟩ : ∃ evidenceHash, computeEvidenceHash ratioFormat String.ofList
      (racedRun.rawEvents.map RunEvent.toDict) = .ok evidenceHash := ⟨_, hconsistent.evidenceHash⟩
  obtain ⟨rowA, hrowA, hreadA, hidA, hscoredA, -⟩ := racedRow evidenceHash "a"
  obtain ⟨rowB, hrowB, hreadB, hidB, -, hscoredB⟩ := racedRow evidenceHash "b"
  have hresult : ∃ result, racedRun.result ratioFormat String.ofList none = .ok result ∧
      result.agentIds = ["a", "b", "c"] ∧ result.scoreRows = [rowA, rowB, rowB] := by
    have hdecisions : racedRun.decisions = [(racer "a", flaggedOver, pricedTick),
      (racer "b", flaggedOver, pricedTick), (racer "b", flaggedOver, pricedTick)] := rfl
    simp only [CompetitionRun.result, hhash, hdecisions, List.mapM_cons, List.mapM_nil, hrowA, hrowB,
      bind, Except.bind]
    exact ⟨_, rfl, rfl, rfl⟩
  obtain ⟨result, hresult, hids, hrows⟩ := hresult
  have hread : result.scoreRows.map readRow = racedRows := by
    rw [hrows, List.map_cons, List.map_cons, List.map_cons, List.map_nil, hreadA, hreadB]
    rfl
  have hwindow : ∀ row ∈ result.scoreRows, intValue row "window_clv_bps" = none := by
    intro row hrow
    have hmem : readRow row ∈ racedRows := hread ▸ List.mem_map_of_mem hrow
    have hnone : ∀ read ∈ racedRows, read.windowClvBps = none := by decide
    exact hnone _ hmem
  have hnoWindow (rows : List Params) (h : rows ⊆ result.scoreRows) :
      rows.filterMap (fun row => intValue row "window_clv_bps") = [] :=
    List.filterMap_eq_nil_iff.mpr fun row hrow => hwindow row (h hrow)
  obtain ⟨metricsA, hmetricsA⟩ := metrics_of_flagged "a" (proofModeOf result "a") [rowA] 1 hscoredA
    (hnoWindow _ (by rw [hrows]; simp))
  obtain ⟨metricsB, hmetricsB⟩ := metrics_of_flagged "b" (proofModeOf result "b") [rowB, rowB] 2 hscoredB
    (hnoWindow _ (by rw [hrows]; simp))
  obtain ⟨metricsC, hmetricsC⟩ := metrics_of_flagged "c" (proofModeOf result "c") [] 0 rfl rfl
  have htable : ∃ table, scoreRun result = .ok table := by
    have hgroups : rowsByAgent ["a", "b", "c"] [("a", rowA), ("b", rowB), ("b", rowB)] =
        [("a", [rowA]), ("b", [rowB, rowB]), ("c", [])] := rfl
    simp only [scoreRun, hrows, hids, List.mapM_cons, List.mapM_nil, hidA, hidB, hgroups, hmetricsA,
      hmetricsB, hmetricsC, bind, Except.bind, pure, Except.pure]
    exact ⟨_, rfl⟩
  obtain ⟨table, htable⟩ := htable
  refine ⟨result, table, ?_, hids, hread, htable, fun agentId => ⟨?_, ?_⟩⟩
  · have hopen : racedRun.finalized = false := rfl
    have hseal : racedRun.sealWindow ratioFormat none = racedRun := rfl
    simp only [CompetitionRun.finalize, hopen, hseal, Option.map_none, hresult, Bool.false_eq_true,
      if_false]
  · intro hne
    have hall : ((rowsOf result.scoreRows agentId).filter isScored).map
        (fun row => (intValue row "clv_bps").getD 0) =
          List.replicate ((rowsOf result.scoreRows agentId).filter isScored).length 600 := by
      refine List.map_eq_replicate_iff.mpr fun row hrow => ?_
      have hmem : readRow row ∈ racedRows :=
        hread ▸ List.mem_map_of_mem (List.mem_of_mem_filter (List.mem_of_mem_filter hrow))
      have hclv : ∀ read ∈ racedRows, read.clvBps.getD 0 = 600 := by decide
      exact hclv _ hmem
    rw [hall] at hne ⊢
    have hcount : ((rowsOf result.scoreRows agentId).filter isScored).length ≠ 0 := fun hzero => by
      rw [hzero] at hne
      exact hne rfl
    rw [List.length_replicate, mean_of_flagged hcount]
    exact lt_of_le_of_lt (by norm_num) PyFloat.small_lt_overflowBound
  · rw [hnoWindow (rowsOf result.scoreRows agentId) fun row hrow => List.mem_of_mem_filter hrow]
    exact fun hne => absurd rfl hne

/-- The agents of sorted metrics. -/
theorem agents_of_sorted {κ : Type} [LinearOrder κ] {key : Metrics → κ} {proofMode : String → String}
    {rows : List Exact.ScoreRow} (ids : List String) :
    (sortBy key (ids.map (Exact.metricsOf proofMode rows))).map Metrics.agentId =
      ids.insertionSort fun i j =>
        key (Exact.metricsOf proofMode rows i) ≤ key (Exact.metricsOf proofMode rows j) := by
  rw [sortBy, ← List.map_insertionSort (fun i j => key (Exact.metricsOf proofMode rows i) ≤
    key (Exact.metricsOf proofMode rows j)) _ (Exact.metricsOf proofMode rows) ids
      (fun _ _ _ _ => Iff.rfl), Exact.map_agentId_metricsOf]

/-- `score_run` has the second agent first. -/
theorem racedTable (proofMode : String → String) :
    (Exact.scoreRun ["a", "b", "c"] proofMode racedRows).map Metrics.agentId = ["b", "a", "c"] := by
  have hids : Exact.agents ["a", "b", "c"] racedRows = ["a", "b", "c"] := by decide
  have hsorted : (["a", "b", "c"].insertionSort fun i j =>
      rankKey (Exact.metricsOf (fun _ => "") racedRows i) ≤
        rankKey (Exact.metricsOf (fun _ => "") racedRows j)) = ["b", "a", "c"] := by decide +kernel
  rw [Exact.scoreRun_eq, Exact.map_agentId_ranked, hids, agents_of_sorted]
  exact hsorted

/-- The board has the first agent first, and not the third. -/
theorem racedBoard (proofMode : String → String) :
    (sortBy boardKey ((Exact.scoreRun ["a", "b", "c"] proofMode racedRows).filter fun m =>
      m.agentId ∈ racedRows.map Exact.ScoreRow.agentId)).map (fun m => (scoreOf m).agentId) =
        ["a", "b"] := by
  have hagents (agentId : String) :
      agentId ∈ ["a", "b"] ↔ agentId ∈ racedRows.map Exact.ScoreRow.agentId := by
    simp [racedRows]
  have hscores := scores_of_table ["a", "b", "c"] proofMode (by decide) hagents
  have hsorted : (["a", "b"].insertionSort fun i j =>
      boardKey (Exact.metricsOf (fun _ => "") racedRows i) ≤
        boardKey (Exact.metricsOf (fun _ => "") racedRows j)) = ["a", "b"] := by decide +kernel
  have hids := congrArg (List.map Score.agentId) hscores
  rw [List.map_map, List.map_map] at hids
  rw [← hsorted]
  exact hids.symm.trans (agents_of_sorted ["a", "b"])

/-- The two rankings of that run. -/
theorem raced_rankings : ∃ result table log board,
    (racedRun.finalize ratioFormat String.ofList none (.ok ())).1 = .ok result ∧
    scoreRun result = .ok table ∧
    buildEventLog ratioFormat String.ofList result ⟨"competition", "not_anchored", 0⟩ = .ok log ∧
    deriveLeaderboard ratioFormat log = .ok board ∧
    table.map Metrics.agentId = ["b", "a", "c"] ∧
    board.map CompetitionLeaderboardRow.agentId = ["a", "b"] := by
  obtain ⟨result, table, hfinalize, hids, hread, htable, hfits⟩ := racedRun_seals
  have hsealed := sealedRows_of_finalize (Prod.ext hfinalize rfl)
  obtain ⟨log, hlog⟩ := (finalized_log racedRun_calls hfinalize
    ⟨"competition", "not_anchored", 0⟩).1.mpr hfits
  obtain ⟨board, hboard, hshown⟩ := board_of_log hsealed htable hlog
  have hexact := scoreRun_exact hsealed.ticks htable
  rw [hids, hread] at hexact
  refine ⟨result, table, log, board, hfinalize, htable, hlog, hboard, ?_, ?_⟩
  · rw [hexact, racedTable]
  · have hscores := congrArg (List.map Score.agentId) hshown.scores
    rw [List.map_map, List.map_map, hexact] at hscores
    simp only [HasRow, hread] at hscores
    exact hscores.trans (racedBoard _)

end Tied

/-! ## The two rankings -/

/-- **The leaderboard of a sealed run** lists the agents that have score rows, with the scores of
`score_run`, by their mean and their names. -/
theorem deriveLeaderboard_isBoard {format : Json.FloatFormat PyFloat} {sha256 : List Char → String}
    {agents : List Agent} {sourceMode : SourceMode} {runId : String} {hasSink : Bool}
    {calls : List Runtime.Call} {run : CompetitionRun} {window : Option RunWindow} {result : RunResult}
    {competitionMeta : CompetitionMeta} {table : List Metrics} {log : List CompetitionEvent}
    (_hcalls : (CompetitionRun.start agents sourceMode runId hasSink).calls format calls = .ok run)
    (hfinalize : (run.finalize format sha256 window (.ok ())).1 = .ok result)
    (htable : scoreRun result = .ok table)
    (hlog : buildEventLog format sha256 result competitionMeta = .ok log) :
    ∃ board, deriveLeaderboard format log = .ok board ∧ IsBoard result table board :=
  board_of_log (sealedRows_of_finalize (Prod.ext hfinalize rfl)) htable hlog

theorem deriveLeaderboard_isBoard_raced : ∃ result table board,
    (racedRun.finalize ratioFormat String.ofList none (.ok ())).1 = .ok result ∧
      table.map Metrics.agentId = ["b", "a", "c"] ∧ IsBoard result table board := by
  obtain ⟨result, table, log, board, hfinalize, htable, hlog, -, hids, -⟩ := raced_rankings
  obtain ⟨board', -, hshown⟩ := deriveLeaderboard_isBoard racedRun_calls hfinalize htable hlog
  exact ⟨result, table, board', hfinalize, hids, hshown⟩

/-- **The leaderboard and `score_run` differ** on a run of three agents: one has no score row, and the
two others have one mean. -/
theorem leaderboard_apart :
    ¬ ∀ (format : Json.FloatFormat PyFloat) (sha256 : List Char → String) (agents : List Agent)
      (sourceMode : SourceMode) (runId : String) (hasSink : Bool) (calls : List Runtime.Call)
      (run : CompetitionRun) (window : Option RunWindow) (result : RunResult)
      (competitionMeta : CompetitionMeta) (table : List Metrics) (log : List CompetitionEvent)
      (board : List CompetitionLeaderboardRow),
      (CompetitionRun.start agents sourceMode runId hasSink).calls format calls = .ok run →
      (run.finalize format sha256 window (.ok ())).1 = .ok result →
      scoreRun result = .ok table →
      buildEventLog format sha256 result competitionMeta = .ok log →
      deriveLeaderboard format log = .ok board →
      board.map CompetitionLeaderboardRow.agentId = table.map Metrics.agentId := by
  intro hclaim
  obtain ⟨result, table, log, board, hfinalize, htable, hlog, hboard, hids, hids'⟩ := raced_rankings
  have hsame := hclaim _ _ _ _ _ _ _ _ _ _ _ _ _ _ racedRun_calls hfinalize htable hlog hboard
  rw [hids, hids'] at hsame
  exact absurd hsame (by decide)

end Veridex.Api
