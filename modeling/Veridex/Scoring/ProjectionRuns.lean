import Veridex.Scoring.PublicProjection
import Veridex.Scoring.Ranking

/-!
# The public projection over a history

Runs are projected and persisted, again and again, under whatever bindings. The last projection of a run
stands. `projections_faithful_iff` says when the board pools each sealed row bound to an agent it shows
once, and nothing else. The store is keyed by run and public identity: of two
contestants of one identity it keeps the last, and a binding that is given up leaves its row behind.
-/

namespace Veridex.Scoring

open Veridex.Lib Veridex.Py

/-- One projection of a run. -/
structure Projection where
  runId : String
  bindings : String → Option PublicBinding
  sourceMode : String

/-- The projection covers its run: its mode is one of the two, and each agent is bound. -/
def Projection.Covers (p : Projection) (sealedRows : List Metrics) : Prop :=
  p.sourceMode ∈ validSourceModes ∧ ∀ row ∈ sealedRows, (p.bindings row.agentId).isSome

variable (sealed : String → List Metrics)

/-- `project_public_rows`, then `persist_projected_rows`. -/
def project (stored : List PublicRow) (p : Projection) : Except PyExc (List PublicRow) :=
  (projectPublicRows (sealed p.runId) p.bindings p.runId p.sourceMode).map fun rows =>
    persistProjectedRows rows stored

/-- A history of projections, on an empty store. -/
def projectAll (history : List Projection) : Except PyExc (List PublicRow) :=
  history.foldlM (project sealed) []

/-! ## What stands -/

/-- The sealed rows of a run under the bindings of a projection. -/
def Projection.rows (p : Projection) : List PublicRow :=
  (sealed p.runId).filterMap fun row =>
    (p.bindings row.agentId).map fun binding => binding.publicRow p.runId p.sourceMode row

/-- The last projection of each run. -/
def standing : List Projection → List Projection
  | [] => []
  | p :: rest => if rest.any (·.runId = p.runId) then standing rest else p :: standing rest

/-- The sealed rows, each under the binding that stands. -/
def boundRows (history : List Projection) : List PublicRow :=
  (standing history).flatMap (Projection.rows sealed)

variable (agents : String → Option PublicAgent) (boardKind : BoardKind)

/-- The rows bound to an agent. -/
def boundTo (history : List Projection) (agentId : String) : List PublicRow :=
  (boundRows sealed history).filter fun row => row.publicAgentId = agentId

/-- **The board loses and invents nothing** of the sealed rows of a history. -/
structure Faithful (history : List Projection) (stored : List PublicRow) : Prop where
  once : (keptRows agents boardKind stored).Perm
    ((boundRows sealed history).filter fun row => shown agents boardKind row.publicAgentId)
  single : ((directionalBoard agents boardKind stored).map DirectionalRow.publicAgentId).Nodup
  showing : ∀ agentId,
    agentId ∈ (directionalBoard agents boardKind stored).map DirectionalRow.publicAgentId ↔
      shown agents boardKind agentId = true ∧ boundTo sealed history agentId ≠ []
  pools : ∀ row ∈ directionalBoard agents boardKind stored,
    row.row.totalClvBps =
        ((boundTo sealed history row.publicAgentId).map fun r => r.metrics.totalClvBps).sum ∧
      row.row.actionCount =
          ((boundTo sealed history row.publicAgentId).map fun r => r.metrics.actionCount).sum ∧
        row.row.avgClvBps = Exact.average row.row.totalClvBps row.row.actionCount
  repeated : ∀ p ∈ standing history, project sealed stored p = .ok stored

/-- **One contestant each**: where a projection bound an agent of its run to an agent the board shows,
the one that stands binds exactly one to it. -/
def OneContestant (history : List Projection) : Prop :=
  ∀ p ∈ history, ∀ row ∈ p.rows sealed, shown agents boardKind row.publicAgentId = true →
    ∀ q ∈ standing history, q.runId = p.runId →
      ((q.rows sealed).filter fun r => r.publicAgentId = row.publicAgentId).length = 1

variable {sealed agents boardKind} {p q : Projection} {history : List Projection}
  {stored : List PublicRow} {row : PublicRow}

/-! ## One projection -/

theorem mapM_projectRow {bindings : String → Option PublicBinding} {runId sourceMode : String}
    {rows : List Metrics} (h : ∀ row ∈ rows, (bindings row.agentId).isSome) :
    rows.mapM (projectRow bindings runId sourceMode) = .ok (rows.filterMap fun row =>
      (bindings row.agentId).map fun binding => binding.publicRow runId sourceMode row) := by
  induction rows with
  | nil => rfl
  | cons row rest ih =>
    obtain ⟨hrow, hrest⟩ := List.forall_mem_cons.mp h
    obtain ⟨binding, hbinding⟩ := Option.isSome_iff_exists.mp hrow
    rw [List.mapM_cons, ih hrest, List.filterMap_cons, projectRow, hbinding]
    rfl

theorem project_eq (h : p.Covers (sealed p.runId)) :
    project sealed stored p = .ok (persistProjectedRows (p.rows sealed) stored) := by
  rw [project, projectPublicRows, if_neg (not_not.mpr h.1), mapM_projectRow h.2]
  rfl

theorem runId_of_mem_rows (h : row ∈ p.rows sealed) : row.runId = p.runId := by
  obtain ⟨m, -, hm⟩ := List.mem_filterMap.mp h
  obtain ⟨binding, -, rfl⟩ := Option.map_eq_some_iff.mp hm
  rfl

theorem agentId_of_mem_rows (h : row ∈ p.rows sealed) : row.metrics.agentId = row.publicAgentId := by
  obtain ⟨m, -, hm⟩ := List.mem_filterMap.mp h
  obtain ⟨binding, -, rfl⟩ := Option.map_eq_some_iff.mp hm
  rfl

/-- The rows of a projection are those of different agents of the run. -/
theorem nodup_rows (h : ((sealed p.runId).map Metrics.agentId).Nodup) :
    ((p.rows sealed).map PublicRow.runtimeAgentId).Nodup := by
  rw [Projection.rows]
  generalize sealed p.runId = metrics at h
  refine List.Sublist.nodup ?_ h
  clear h
  induction metrics with
  | nil => exact .slnil
  | cons m rest ih =>
    rw [List.filterMap_cons]
    cases p.bindings m.agentId with
    | none => exact ih.cons _
    | some binding => exact ih.cons_cons _

/-! ## The last projections -/

/-- A projection stands when none of its run follows. -/
theorem mem_standing : p ∈ standing history ↔
    ∃ before after, history = before ++ p :: after ∧ ∀ q ∈ after, q.runId ≠ p.runId := by
  induction history with
  | nil => simp [standing]
  | cons first rest ih =>
    have hgoes : (∃ before after, rest = before ++ p :: after ∧ ∀ q ∈ after, q.runId ≠ p.runId) →
        ∃ before after, first :: rest = before ++ p :: after ∧ ∀ q ∈ after, q.runId ≠ p.runId := by
      rintro ⟨before, after, rfl, hafter⟩
      exact ⟨first :: before, after, rfl, hafter⟩
    rw [standing]
    by_cases hlater : rest.any (·.runId = first.runId) = true
    · rw [if_pos hlater, ih]
      refine ⟨hgoes, ?_⟩
      rintro ⟨before, after, heq, hafter⟩
      rcases List.cons_eq_append_iff.mp heq with ⟨rfl, hcons⟩ | ⟨before', rfl, hrest⟩
      · obtain ⟨rfl, rfl⟩ := List.cons.inj hcons
        obtain ⟨q, hq, hrun⟩ := List.any_eq_true.mp hlater
        exact absurd (of_decide_eq_true hrun) (hafter q hq)
      · exact ⟨before', after, hrest, hafter⟩
    · rw [if_neg hlater, List.mem_cons, ih]
      constructor
      · rintro (rfl | h)
        · refine ⟨[], rest, rfl, fun q hq hrun => hlater ?_⟩
          exact List.any_eq_true.mpr ⟨q, hq, decide_eq_true hrun⟩
        · exact hgoes h
      · rintro ⟨before, after, heq, hafter⟩
        rcases List.cons_eq_append_iff.mp heq with ⟨rfl, hcons⟩ | ⟨before', rfl, hrest⟩
        · exact .inl (List.cons.inj hcons).1
        · exact .inr ⟨before', after, hrest, hafter⟩

theorem standing_subset (h : p ∈ standing history) : p ∈ history := by
  obtain ⟨before, after, rfl, -⟩ := mem_standing.mp h
  exact List.mem_append_right _ List.mem_cons_self

theorem exists_standing (h : p ∈ history) : ∃ q ∈ standing history, q.runId = p.runId := by
  induction history generalizing p with
  | nil => exact absurd h List.not_mem_nil
  | cons first rest ih =>
    rw [standing]
    rcases List.mem_cons.mp h with rfl | hrest
    · by_cases hlater : rest.any (·.runId = p.runId) = true
      · obtain ⟨later, hmem, hsame⟩ := List.any_eq_true.mp hlater
        obtain ⟨q, hq, hrun⟩ := ih hmem
        rw [if_pos hlater]
        exact ⟨q, hq, hrun.trans (of_decide_eq_true hsame)⟩
      · rw [if_neg hlater]
        exact ⟨p, List.mem_cons_self, rfl⟩
    · obtain ⟨q, hq, hrun⟩ := ih hrest
      split
      · exact ⟨q, hq, hrun⟩
      · exact ⟨q, List.mem_cons_of_mem _ hq, hrun⟩

theorem nodup_standing (history : List Projection) :
    ((standing history).map Projection.runId).Nodup := by
  induction history with
  | nil => exact List.nodup_nil
  | cons first rest ih =>
    rw [standing]
    split
    · exact ih
    · next hlater =>
      refine List.nodup_cons.mpr ⟨fun hmem => hlater ?_, ih⟩
      obtain ⟨q, hq, hrun⟩ := List.mem_map.mp hmem
      exact List.any_eq_true.mpr ⟨q, standing_subset hq, decide_eq_true hrun⟩

/-! ## The store -/

/-- What a history writes, in order. -/
def written (sealed : String → List Metrics) (history : List Projection) : List PublicRow :=
  history.flatMap (Projection.rows sealed)

/-- **The store** after a history. -/
theorem projectAll_eq (h : ∀ p ∈ history, p.Covers (sealed p.runId)) :
    projectAll sealed history = .ok (upserts PublicRow.key [] (written sealed history)) := by
  have hfold : ∀ stored, history.foldlM (project sealed) stored =
      .ok (upserts PublicRow.key stored (written sealed history)) := by
    induction history with
    | nil => exact fun _ => rfl
    | cons p rest ih =>
      intro stored
      obtain ⟨hp, hrest⟩ := List.forall_mem_cons.mp h
      rw [List.foldlM_cons, project_eq hp, written, List.flatMap_cons, upserts_append]
      exact ih hrest _
  exact hfold []

/-- What is written under a key of a run, up to the projection that stands. -/
theorem filter_written {before after : List Projection} (hafter : ∀ q ∈ after, q.runId ≠ p.runId)
    (agentId : String) :
    (written sealed (before ++ p :: after)).filter (PublicRow.key · = (p.runId, agentId)) =
      (written sealed before).filter (PublicRow.key · = (p.runId, agentId)) ++
        (p.rows sealed).filter (PublicRow.publicAgentId · = agentId) := by
  have hlater : (written sealed after).filter (PublicRow.key · = (p.runId, agentId)) = [] := by
    refine List.filter_eq_nil_iff.mpr fun row hrow hkey => ?_
    obtain ⟨q, hq, hmem⟩ := List.mem_flatMap.mp hrow
    have hrun : row.runId = p.runId := (Prod.mk.inj (of_decide_eq_true hkey)).1
    exact hafter q hq ((runId_of_mem_rows hmem).symm.trans hrun)
  have hown : (p.rows sealed).filter (PublicRow.key · = (p.runId, agentId)) =
      (p.rows sealed).filter (PublicRow.publicAgentId · = agentId) := by
    refine List.filter_congr fun row hrow => ?_
    rw [PublicRow.key, runId_of_mem_rows hrow]
    simp
  rw [written, List.flatMap_append, List.flatMap_cons, List.filter_append, List.filter_append, hown,
    ← written, ← written, hlater, List.append_nil]

variable (sealed history) in
/-- The rows of the store after a history. -/
def storedRows : List PublicRow := upserts PublicRow.key [] (written sealed history)

theorem nodup_keys_stored : ((storedRows sealed history).map PublicRow.key).Nodup :=
  nodup_upserts List.nodup_nil

theorem mem_storedRows : row ∈ storedRows sealed history ↔
    ((written sealed history).filter (PublicRow.key · = row.key)).getLast? = some row := by
  have hempty : (([] : List PublicRow).map PublicRow.key).Nodup := List.nodup_nil
  rw [storedRows, mem_upserts hempty, or_iff_left (fun h => List.not_mem_nil h.2)]

theorem exists_of_mem_stored (h : row ∈ storedRows sealed history) :
    ∃ p ∈ history, row ∈ p.rows sealed := by
  have hmem := List.mem_of_getLast? (mem_storedRows.mp h)
  exact List.mem_flatMap.mp (List.mem_filter.mp hmem).1

/-- **A row of a projection that stands** is in the store when it is the last for its identity. -/
theorem mem_stored_of_standing (hp : p ∈ standing history) (hrow : row ∈ p.rows sealed) :
    row ∈ storedRows sealed history ↔
      ((p.rows sealed).filter (PublicRow.publicAgentId · = row.publicAgentId)).getLast? = some row := by
  obtain ⟨before, after, rfl, hafter⟩ := mem_standing.mp hp
  have hkey : row.key = (p.runId, row.publicAgentId) := by
    rw [PublicRow.key, runId_of_mem_rows hrow]
  have hne : (p.rows sealed).filter (PublicRow.publicAgentId · = row.publicAgentId) ≠ [] :=
    List.ne_nil_of_mem (List.mem_filter.mpr ⟨hrow, decide_eq_true rfl⟩)
  rw [mem_storedRows, hkey, filter_written hafter, List.getLast?_append_of_ne_nil _ hne]

/-- The rows that stand are different rows. -/
theorem nodup_boundRows (hrows : ∀ p ∈ history, ((sealed p.runId).map Metrics.agentId).Nodup) :
    (boundRows sealed history).Nodup := by
  rw [boundRows, List.nodup_flatMap]
  constructor
  · intro p hp
    exact (nodup_rows (hrows p (standing_subset hp))).of_map _
  · refine (List.pairwise_map.mp (nodup_standing history)).imp fun hne => ?_
    intro row hrow hrow'
    exact hne ((runId_of_mem_rows hrow).symm.trans (runId_of_mem_rows hrow'))

theorem mem_boundRows : row ∈ boundRows sealed history ↔
    ∃ p ∈ standing history, row ∈ p.rows sealed :=
  List.mem_flatMap

/-- A row that is bound to an agent with one contestant is in the store. -/
theorem mem_stored_of_one (hp : p ∈ standing history) (hrow : row ∈ p.rows sealed)
    (hone : ((p.rows sealed).filter fun r => r.publicAgentId = row.publicAgentId).length = 1) :
    row ∈ storedRows sealed history := by
  rw [mem_stored_of_standing hp hrow]
  obtain ⟨r, hr⟩ := List.length_eq_one_iff.mp hone
  have hmem : row ∈ (p.rows sealed).filter fun r => r.publicAgentId = row.publicAgentId :=
    List.mem_filter.mpr ⟨hrow, decide_eq_true rfl⟩
  rw [hr, List.mem_singleton] at hmem
  rw [hr, List.getLast?_singleton, hmem]

/-- Rows of the store of one run and one identity are one. -/
theorem eq_of_stored {row' : PublicRow} (h : row ∈ storedRows sealed history)
    (h' : row' ∈ storedRows sealed history) (hkey : row.key = row'.key) : row = row' :=
  List.inj_on_of_nodup_map nodup_keys_stored h h' hkey

/-- **With one contestant each** the board keeps the rows that stand, each once. -/
theorem once_of_oneContestant
    (hrows : ∀ p ∈ history, ((sealed p.runId).map Metrics.agentId).Nodup)
    (hone : OneContestant sealed agents boardKind history) :
    (keptRows agents boardKind (storedRows sealed history)).Perm
      ((boundRows sealed history).filter fun row => shown agents boardKind row.publicAgentId) := by
  have hstored : (storedRows sealed history).Nodup := nodup_keys_stored.of_map _
  refine (List.perm_ext_iff_of_nodup (hstored.filter _)
    ((nodup_boundRows hrows).filter _)).mpr fun row => ?_
  rw [List.mem_filter, List.mem_filter, mem_boundRows]
  refine and_congr_left fun hshown => ⟨fun hmem => ?_, ?_⟩
  · obtain ⟨p, hp, hrow⟩ := exists_of_mem_stored hmem
    obtain ⟨q, hq, hrun⟩ := exists_standing hp
    have hlength := hone p hp row hrow hshown q hq hrun
    -- the one row that stands for the identity is the one in the store
    obtain ⟨r, hr⟩ := List.length_eq_one_iff.mp hlength
    have hr' : r ∈ (q.rows sealed).filter fun r => r.publicAgentId = row.publicAgentId :=
      hr ▸ List.mem_singleton_self r
    obtain ⟨hmem', hpublic⟩ := List.mem_filter.mp hr'
    have hpublic : r.publicAgentId = row.publicAgentId := of_decide_eq_true hpublic
    have hthere := mem_stored_of_one hq hmem' (hpublic ▸ hlength)
    have hkey : row.key = r.key := by
      rw [PublicRow.key, PublicRow.key, hpublic, runId_of_mem_rows hrow, runId_of_mem_rows hmem', hrun]
    exact ⟨q, hq, eq_of_stored hmem hthere hkey ▸ hmem'⟩
  · rintro ⟨p, hp, hrow⟩
    exact mem_stored_of_one hp hrow (hone p (standing_subset hp) row hrow hshown p hp rfl)

/-- **Where the board keeps the rows that stand**, there is one contestant each. -/
theorem oneContestant_of_once
    (hrows : ∀ p ∈ history, ((sealed p.runId).map Metrics.agentId).Nodup)
    (honce : (keptRows agents boardKind (storedRows sealed history)).Perm
      ((boundRows sealed history).filter fun row => shown agents boardKind row.publicAgentId)) :
    OneContestant sealed agents boardKind history := by
  intro p hp row hrow hshown q hq hrun
  have hstored : ∀ {r}, shown agents boardKind r.publicAgentId = true →
      (r ∈ storedRows sealed history ↔ ∃ p ∈ standing history, r ∈ p.rows sealed) := by
    intro r hr
    have hiff := honce.mem_iff (a := r)
    rwa [keptRows, List.mem_filter, List.mem_filter, mem_boundRows,
      and_iff_left hr, and_iff_left hr] at hiff
  -- something is in the store for the run and the identity
  have hwritten : (written sealed history).filter (PublicRow.key · = row.key) ≠ [] :=
    List.ne_nil_of_mem (List.mem_filter.mpr
      ⟨List.mem_flatMap.mpr ⟨p, hp, hrow⟩, decide_eq_true rfl⟩)
  have hlast := List.getLast?_eq_some_getLast hwritten
  obtain ⟨-, hkey⟩ := List.mem_filter.mp (List.getLast_mem hwritten)
  generalize ((written sealed history).filter (PublicRow.key · = row.key)).getLast hwritten = last
    at hlast hkey
  have hkey : last.key = row.key := of_decide_eq_true hkey
  have hlast : last ∈ storedRows sealed history := mem_storedRows.mpr (hkey ▸ hlast)
  obtain ⟨hlastRun, hlastPublic⟩ := Prod.mk.inj hkey
  have hlastShown : shown agents boardKind last.publicAgentId = true := hlastPublic ▸ hshown
  obtain ⟨q', hq', hmem⟩ := (hstored hlastShown).mp hlast
  obtain rfl : q' = q := by
    refine List.inj_on_of_nodup_map (nodup_standing history) hq' hq ?_
    rw [hrun, ← runId_of_mem_rows hmem, hlastRun, runId_of_mem_rows hrow]
  -- every row that stands for the identity is that one
  have hall : ∀ r ∈ (q'.rows sealed).filter fun r => r.publicAgentId = row.publicAgentId,
      r = last := by
    intro r hr
    obtain ⟨hr, hpublic⟩ := List.mem_filter.mp hr
    have hpublic : r.publicAgentId = row.publicAgentId := of_decide_eq_true hpublic
    have hthere := (hstored (hpublic ▸ hshown)).mpr ⟨q', hq', hr⟩
    refine eq_of_stored hthere hlast ?_
    rw [PublicRow.key, PublicRow.key, hpublic, hlastPublic, runId_of_mem_rows hr,
      runId_of_mem_rows hmem]
  have hnodup : ((q'.rows sealed).filter fun r => r.publicAgentId = row.publicAgentId).Nodup :=
    ((nodup_rows (hrows q' (standing_subset hq'))).of_map _).filter _
  have hperm : ((q'.rows sealed).filter fun r => r.publicAgentId = row.publicAgentId).Perm [last] :=
    (List.perm_ext_iff_of_nodup hnodup (List.nodup_singleton last)).mpr fun r =>
      ⟨fun hr => List.mem_singleton.mpr (hall r hr), fun hr => by
        rw [List.mem_singleton.mp hr]
        exact List.mem_filter.mpr ⟨hmem, decide_eq_true hlastPublic⟩⟩
  exact hperm.length_eq

/-! ## The board -/

theorem map_publicAgentId_board : (directionalBoard agents boardKind stored).map
    DirectionalRow.publicAgentId =
      (leaderboard ((keptRows agents boardKind stored).map PublicRow.record)).map
        BoardRow.agentId := by
  rw [directionalBoard, List.map_map]
  rfl

/-- The rows the board pools for an agent are those bound to it. -/
theorem pooled_of_once
    (honce : (keptRows agents boardKind stored).Perm
      ((boundRows sealed history).filter fun row => shown agents boardKind row.publicAgentId))
    {agentId : String} (hshown : shown agents boardKind agentId = true) :
    (recordsOf ((keptRows agents boardKind stored).map PublicRow.record) agentId).Perm
      ((boundTo sealed history agentId).map PublicRow.record) := by
  have hpool := (honce.map PublicRow.record).filter fun r => r.metrics.agentId = agentId
  refine hpool.trans (.of_eq ?_)
  rw [List.filter_map, List.filter_filter, boundTo]
  congr 1
  refine List.filter_congr fun row hrow => ?_
  obtain ⟨p, -, hmem⟩ := mem_boundRows.mp hrow
  have hagent : row.record.metrics.agentId = row.publicAgentId := agentId_of_mem_rows hmem
  rw [Function.comp_apply, hagent]
  by_cases heq : row.publicAgentId = agentId
  · rw [heq, hshown, Bool.and_true]
  · rw [decide_eq_false heq, Bool.false_and]

theorem showing_of_once
    (honce : (keptRows agents boardKind stored).Perm
      ((boundRows sealed history).filter fun row => shown agents boardKind row.publicAgentId))
    (agentId : String) :
    agentId ∈ (directionalBoard agents boardKind stored).map DirectionalRow.publicAgentId ↔
      shown agents boardKind agentId = true ∧ boundTo sealed history agentId ≠ [] := by
  rw [map_publicAgentId_board, (map_agentId_leaderboard _).mem_iff, recordAgents, List.mem_eraseDups,
    List.map_map, (honce.map _).mem_iff, List.mem_map]
  constructor
  · rintro ⟨row, hrow, rfl⟩
    obtain ⟨hmem, hshown⟩ := List.mem_filter.mp hrow
    obtain ⟨p, -, hp⟩ := mem_boundRows.mp hmem
    have hagent : row.record.metrics.agentId = row.publicAgentId := agentId_of_mem_rows hp
    rw [Function.comp_apply, hagent]
    exact ⟨hshown, List.ne_nil_of_mem (List.mem_filter.mpr ⟨hmem, decide_eq_true rfl⟩)⟩
  · rintro ⟨hshown, hne⟩
    obtain ⟨row, hrow⟩ := List.exists_mem_of_ne_nil _ hne
    obtain ⟨hmem, hpublic⟩ := List.mem_filter.mp hrow
    obtain ⟨p, -, hp⟩ := mem_boundRows.mp hmem
    obtain rfl := of_decide_eq_true hpublic
    exact ⟨row, List.mem_filter.mpr ⟨hmem, hshown⟩, agentId_of_mem_rows hp⟩

/-- **A projection that stands**, made again, changes nothing. -/
theorem project_again (hp : p ∈ standing history) (hcovers : p.Covers (sealed p.runId)) :
    project sealed (storedRows sealed history) p = .ok (storedRows sealed history) := by
  rw [project_eq hcovers]
  refine congrArg _ (upserts_same nodup_keys_stored fun row hrow => ?_)
  have hsame : (p.rows sealed).filter (PublicRow.key · = row.key) =
      (p.rows sealed).filter (PublicRow.publicAgentId · = row.publicAgentId) := by
    refine List.filter_congr fun r hr => ?_
    rw [PublicRow.key, PublicRow.key, runId_of_mem_rows hr, runId_of_mem_rows hrow]
    simp
  have hne : (p.rows sealed).filter (PublicRow.publicAgentId · = row.publicAgentId) ≠ [] :=
    List.ne_nil_of_mem (List.mem_filter.mpr ⟨hrow, decide_eq_true rfl⟩)
  have hlast := List.getLast?_eq_some_getLast hne
  obtain ⟨hmem, hpublic⟩ := List.mem_filter.mp (List.getLast_mem hne)
  refine ⟨_, (mem_stored_of_standing hp hmem).mpr ?_, hsame.symm ▸ hlast⟩
  simp only [of_decide_eq_true hpublic, hlast]

/-- **The public projection** of a history of sealed runs loses and invents nothing on a board exactly
when each agent the board shows has one contestant in each run it was ever bound in. -/
theorem projections_faithful_iff (agents : String → Option PublicAgent) (boardKind : BoardKind)
    (hrows : ∀ p ∈ history, ((sealed p.runId).map Metrics.agentId).Nodup)
    (hcovers : ∀ p ∈ history, p.Covers (sealed p.runId)) :
    ∃ stored, projectAll sealed history = .ok stored ∧
      (Faithful sealed agents boardKind history stored ↔
        OneContestant sealed agents boardKind history) := by
  refine ⟨_, projectAll_eq hcovers, fun hfaithful => oneContestant_of_once hrows hfaithful.once,
    fun hone => ?_⟩
  have honce := once_of_oneContestant hrows hone
  refine ⟨honce, ?_, showing_of_once honce, ?_, ?_⟩
  · rw [map_publicAgentId_board]
    exact (map_agentId_leaderboard _).nodup_iff.mpr (nodup_eraseDups _)
  · intro row hrow
    have hshown := ((showing_of_once honce row.publicAgentId).mp (List.mem_map_of_mem hrow)).1
    obtain ⟨boardRow, hboard, rfl⟩ := List.mem_map.mp hrow
    have hpool := pooled_of_once honce hshown
    obtain ⟨rank, heq⟩ := mem_leaderboard hboard
    have htotal := (hpool.map fun r => r.metrics.totalClvBps).sum_eq
    have hcount := (hpool.map fun r => r.metrics.actionCount).sum_eq
    rw [List.map_map] at htotal hcount
    rw [heq]
    exact ⟨htotal, hcount, rfl⟩
  · exact fun p hp => project_again hp (hcovers p (standing_subset hp))

/-- A sealed row of an agent, with one scored action. -/
def scoredOnce (agentId : String) (clvBps : ℤ) : Metrics where
  agentId := agentId
  avgClvBps := some clvBps
  totalClvBps := clvBps
  simPnl := clvBps
  brier := none
  maxDrawdown := 0
  actionCount := 1
  validPct := 100
  validCount := 1
  avgWindowClvBps := none
  totalWindowClvBps := 0
  windowActionCount := 0
  proofMode := "replay"

/-- Every run is of two agents. -/
def twoAgents : String → List Metrics := fun _ => [scoredOnce "x" 1, scoredOnce "y" 2]

/-- A projection of the run `r` that binds `x` to one agent and `y` to another. -/
def binds (x y : String) : Projection where
  runId := "r"
  bindings := fun agentId => some ⟨if agentId = "x" then x else y, "i", "c"⟩
  sourceMode := "replay"

/-- Every agent is public. -/
def everyPublic : String → Option PublicAgent := fun agentId => some ⟨agentId, .official, .«public»⟩

/-- A projection that binds two agents to two, made twice. -/
theorem projections_faithful_twice :
    ∃ stored, projectAll twoAgents [binds "p" "q", binds "p" "q"] = .ok stored ∧
      (Faithful twoAgents everyPublic .publicAgents [binds "p" "q", binds "p" "q"] stored ↔
        OneContestant twoAgents everyPublic .publicAgents [binds "p" "q", binds "p" "q"]) := by
  refine projections_faithful_iff everyPublic .publicAgents ?_ ?_
  · intro p _
    have hnodup : ((twoAgents "r").map Metrics.agentId).Nodup := by decide
    exact hnodup
  · rintro p hp
    rcases List.mem_pair.mp hp with rfl | rfl <;>
      exact ⟨by decide, fun _ _ => rfl⟩

/-- **A row is lost, a row is invented**: two agents bound to one leave one row of the two; an agent bound
to another than before leaves the row of the one before too. -/
theorem projections_lose_and_invent :
    (∃ stored, projectAll twoAgents [binds "p" "p"] = .ok stored ∧
      ¬ Faithful twoAgents everyPublic .publicAgents [binds "p" "p"] stored) ∧
    ∃ stored, projectAll twoAgents [binds "p" "q", binds "s" "q"] = .ok stored ∧
      ¬ Faithful twoAgents everyPublic .publicAgents [binds "p" "q", binds "s" "q"] stored := by
  refine ⟨⟨_, rfl, fun h => ?_⟩, ⟨_, rfl, fun h => ?_⟩⟩
  · exact absurd h.once.length_eq (by decide)
  · exact absurd h.once.length_eq (by decide)

end Veridex.Scoring
