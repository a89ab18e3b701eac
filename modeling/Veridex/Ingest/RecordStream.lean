import Veridex.Ingest.TxlineNormalize

/-!
# Folding a stream of records (`ingest/live_client.py`)

`marketstatesFromRecordStream` buffers the records of each fixture apart, and normalizes a buffer when
it has `batchSize` of them. The fold fails where the source raises.

Result: `marketstates_filter`, the states of one fixture are those of its records alone.
-/

namespace Veridex.Ingest

open Veridex.Py Veridex.Lib Veridex.Runtime

/-- `int(record["FixtureId"])`: none where the record is dropped. -/
def fixtureIdOf (record : Params) : Except PyExc (Option ℤ) :=
  match record.lookup "FixtureId" with
  | none => .ok none
  | some v =>
    match intOf v with
    | .ok fid => .ok (some fid)
    | .error e => if e.cls = .typeError ∨ e.cls = .valueError then .ok none else .error e

/-- A record and its fixture: none where it is dropped, as what is no dictionary always is. -/
def keyed : Decoded → Except PyExc (Option (ℤ × Params))
  | .obj record => do return (← fixtureIdOf record).map fun fid => (fid, record)
  | _ => .ok none

/-- What the fold holds: `fixture_buffers` and `tick_seqs`. -/
structure StreamState where
  fixtureBuffers : ℤ → List Params
  tickSeqs : ℤ → ℤ

/-- Nothing buffered. -/
def StreamState.init : StreamState := ⟨fun _ => [], fun _ => 0⟩

variable (str : Decoded → String) (batchSize : ℤ)

/-- One record of a fixture: what it makes of the buffers, and the state it completes. -/
def StreamState.feed (s : StreamState) (fid : ℤ) (record : Params) :
    Except PyExc (StreamState × List MarketState) :=
  let buffer := s.fixtureBuffers fid ++ [record]
  if batchSize ≤ buffer.length then do
    let state ← marketstateFromTxlineOdds str buffer (s.tickSeqs fid)
    return (⟨Function.update s.fixtureBuffers fid [],
      Function.update s.tickSeqs fid (s.tickSeqs fid + 1)⟩, [state])
  else .ok (⟨Function.update s.fixtureBuffers fid buffer, s.tickSeqs⟩, [])

/-- The states the rest of a stream completes. -/
def StreamState.drain (s : StreamState) : List Decoded → Except PyExc (List MarketState)
  | [] => .ok []
  | record :: rest => do
    match ← keyed record with
    | none => s.drain rest
    | some (fid, record) =>
      let (s, completed) ← s.feed str batchSize fid record
      return completed ++ (← s.drain rest)

/-- `list(marketstates_from_record_stream(records, batch_size=batch_size))`. -/
def marketstatesFromRecordStream (records : List Decoded) : Except PyExc (List MarketState) :=
  StreamState.init.drain str batchSize records

variable {str batchSize}

/-! ## What the normalizer keeps -/

/-- A state is made with its fixture. -/
theorem ofJson_fixture {fixtureId : ℤ} {tickSeq ts phase markets scores : Decoded}
    {state : MarketState}
    (h : MarketState.ofJson (.obj [("fixture_id", .int fixtureId), ("tick_seq", tickSeq), ("ts", ts),
      ("phase", phase), ("markets", markets), ("scores", scores)]) = .ok state) :
    state.fixtureId = fixtureId := by
  rw [MarketState.ofJson] at h
  split at h
  · rename_i made hmade
    obtain rfl := Except.ok.inj h
    unfold MarketState.ofFields at hmade
    split at hmade
    · obtain ⟨id, hid, hmade⟩ := Option.bind_eq_some_iff.mp hmade
      obtain rfl : fixtureId = id := Option.some.inj hid
      obtain ⟨_, -, hmade⟩ := Option.bind_eq_some_iff.mp hmade
      obtain ⟨_, -, hmade⟩ := Option.bind_eq_some_iff.mp hmade
      obtain ⟨_, -, hmade⟩ := Option.bind_eq_some_iff.mp hmade
      obtain rfl := Option.some.inj hmade
      rfl
    · simp at hmade
  · simp at h

/-- A state has its first message's fixture. -/
theorem normalized_fixture {message : Params} {messages : List Params} {tickSeq : ℤ}
    {state : MarketState}
    (h : marketstateFromTxlineOdds str (message :: messages) tickSeq = .ok state) :
    ∃ v, message.lookup "FixtureId" = some v ∧ intOf v = .ok state.fixtureId := by
  obtain ⟨fixtureIds, hids, h⟩ := bind_eq_ok.mp h
  obtain ⟨fixtureId, others, hfirst, -, rfl⟩ := List.forall₂_cons_left_iff.mp (mapM_eq_ok.mp hids)
  by_cases hothers : (others.any (· ≠ fixtureId)) = true
  · simp only [hothers, if_true] at h
    exact nomatch h
  simp only [hothers] at h
  obtain ⟨stamps, -, h⟩ := bind_eq_ok.mp h
  obtain ⟨markets, -, h⟩ := bind_eq_ok.mp h
  obtain ⟨v, hv, hint⟩ := bind_eq_ok.mp hfirst
  rw [required] at hv
  split at hv
  · rename_i found hfound
    obtain rfl := Except.ok.inj hv
    exact ⟨found, hfound, hint.trans (congrArg _ (ofJson_fixture h).symm)⟩
  · exact nomatch hv

theorem fixtureIdOf_some {record : Params} {fid : ℤ} :
    fixtureIdOf record = .ok (some fid) ↔
      ∃ v, record.lookup "FixtureId" = some v ∧ intOf v = .ok fid := by
  unfold fixtureIdOf
  cases record.lookup "FixtureId" with
  | none => simp
  | some v =>
    cases hv : intOf v with
    | ok n => simp [hv]
    | error e =>
      by_cases he : e.cls = .typeError ∨ e.cls = .valueError
      · simp [he, hv]
      · simp [he, hv]

/-! ## One fixture of a stream -/

/-- Every buffer holds records of its fixture. -/
def StreamState.Sorted (s : StreamState) : Prop :=
  ∀ fid, ∀ record ∈ s.fixtureBuffers fid, fixtureIdOf record = .ok (some fid)

/-- Two folds hold the same of a fixture. -/
def StreamState.Agree (s s' : StreamState) (fid : ℤ) : Prop :=
  s.fixtureBuffers fid = s'.fixtureBuffers fid ∧ s.tickSeqs fid = s'.tickSeqs fid

theorem StreamState.sorted_init : StreamState.init.Sorted := by
  intro fid record hrecord
  exact absurd hrecord List.not_mem_nil

/-- What one record does: its buffer is flushed through the normalizer, or grows. -/
theorem StreamState.feed_ok {s s' : StreamState} {fid : ℤ} {record : Params}
    {completed : List MarketState} (h : s.feed str batchSize fid record = .ok (s', completed)) :
    (∃ state, batchSize ≤ (s.fixtureBuffers fid ++ [record]).length ∧
        marketstateFromTxlineOdds str (s.fixtureBuffers fid ++ [record]) (s.tickSeqs fid) =
          .ok state ∧ completed = [state] ∧
        s' = ⟨Function.update s.fixtureBuffers fid [],
          Function.update s.tickSeqs fid (s.tickSeqs fid + 1)⟩) ∨
      (¬ batchSize ≤ (s.fixtureBuffers fid ++ [record]).length ∧ completed = [] ∧
        s' = ⟨Function.update s.fixtureBuffers fid (s.fixtureBuffers fid ++ [record]),
          s.tickSeqs⟩) := by
  unfold feed at h
  simp only at h
  split_ifs at h with hfull
  · obtain ⟨state, hstate, h⟩ := bind_eq_ok.mp h
    cases Except.ok.inj h
    exact .inl ⟨state, hfull, hstate, rfl, rfl⟩
  · cases Except.ok.inj h
    exact .inr ⟨hfull, rfl, rfl⟩

/-- The state a record completes has its fixture. -/
theorem StreamState.Sorted.completed {s s' : StreamState} (hs : s.Sorted) {fid : ℤ}
    {record : Params} (hrecord : fixtureIdOf record = .ok (some fid))
    {completed : List MarketState} (h : s.feed str batchSize fid record = .ok (s', completed)) :
    ∀ state ∈ completed, state.fixtureId = fid := by
  obtain ⟨state, -, hstate, rfl, -⟩ | ⟨-, rfl, -⟩ := s.feed_ok h
  · have hbuffer : ∀ message ∈ s.fixtureBuffers fid ++ [record],
        fixtureIdOf message = .ok (some fid) := by
      intro message hmessage
      rcases List.mem_append.mp hmessage with hmessage | hmessage
      · exact hs fid message hmessage
      · rw [List.mem_singleton.mp hmessage]
        exact hrecord
    cases hmessages : s.fixtureBuffers fid ++ [record] with
    | nil => simp at hmessages
    | cons message messages =>
      rw [hmessages] at hstate hbuffer
      obtain ⟨v, hv, hint⟩ := normalized_fixture hstate
      have hfid := fixtureIdOf_some.mpr ⟨v, hv, hint⟩
      rw [hbuffer message List.mem_cons_self] at hfid
      rw [List.forall_mem_singleton]
      exact (Option.some.inj (Except.ok.inj hfid)).symm
  · exact List.forall_mem_nil _

theorem StreamState.Sorted.feed {s s' : StreamState} (hs : s.Sorted) {fid : ℤ} {record : Params}
    (hrecord : fixtureIdOf record = .ok (some fid)) {completed : List MarketState}
    (h : s.feed str batchSize fid record = .ok (s', completed)) : s'.Sorted := by
  intro g message hmessage
  obtain ⟨state, -, -, -, rfl⟩ | ⟨-, -, rfl⟩ := s.feed_ok h
  · by_cases hg : g = fid
    · subst hg
      simp at hmessage
    · simp only [Function.update_of_ne hg] at hmessage
      exact hs g message hmessage
  · by_cases hg : g = fid
    · subst hg
      simp only [Function.update_self, List.mem_append, List.mem_singleton] at hmessage
      rcases hmessage with hmessage | rfl
      · exact hs g message hmessage
      · exact hrecord
    · simp only [Function.update_of_ne hg] at hmessage
      exact hs g message hmessage

/-- A record of another fixture changes nothing of this one. -/
theorem StreamState.feed_other {s s' : StreamState} {fid g : ℤ} (hne : fid ≠ g) {record : Params}
    {completed : List MarketState} (h : s.feed str batchSize g record = .ok (s', completed)) :
    s'.Agree s fid := by
  obtain ⟨state, -, -, -, rfl⟩ | ⟨-, -, rfl⟩ := s.feed_ok h
  · exact ⟨Function.update_of_ne hne _ _, Function.update_of_ne hne _ _⟩
  · exact ⟨Function.update_of_ne hne _ _, rfl⟩

/-- A record does the same to two folds that hold the same of its fixture. -/
theorem StreamState.Agree.feed {s s' t : StreamState} {fid : ℤ} (hagree : s.Agree t fid)
    {record : Params} {completed : List MarketState}
    (h : s.feed str batchSize fid record = .ok (s', completed)) :
    ∃ t', t.feed str batchSize fid record = .ok (t', completed) ∧ s'.Agree t' fid := by
  obtain ⟨hbuffer, hseq⟩ := hagree
  obtain ⟨state, hfull, hstate, rfl, rfl⟩ | ⟨hfull, rfl, rfl⟩ := s.feed_ok h
  · rw [hbuffer] at hfull hstate
    rw [hseq] at hstate
    refine ⟨⟨Function.update t.fixtureBuffers fid [],
      Function.update t.tickSeqs fid (t.tickSeqs fid + 1)⟩, ?_, by simp, by simp [hseq]⟩
    simp only [StreamState.feed, if_pos hfull, hstate]
    rfl
  · rw [hbuffer] at hfull
    refine ⟨⟨Function.update t.fixtureBuffers fid (t.fixtureBuffers fid ++ [record]), t.tickSeqs⟩,
      ?_, by simp [hbuffer], hseq⟩
    simp only [StreamState.feed, if_neg hfull]

/-- The record is one of a fixture. -/
def ofFixture (fid : ℤ) (record : Decoded) : Bool :=
  match keyed record with
  | .ok (some (g, _)) => g = fid
  | _ => false

theorem keyed_some {record : Decoded} {fid : ℤ} {fields : Params}
    (h : keyed record = .ok (some (fid, fields))) :
    record = .obj fields ∧ fixtureIdOf fields = .ok (some fid) := by
  cases record with
  | obj record =>
    obtain ⟨found, hfound, h⟩ := bind_eq_ok.mp h
    obtain ⟨g, rfl, heq⟩ := Option.map_eq_some_iff.mp (Except.ok.inj h)
    cases heq
    exact ⟨rfl, hfound⟩
  | null | bool | int | float | str | arr => simp [keyed] at h

/-- The states of one fixture, where the fold of its records alone holds the same of it. -/
theorem StreamState.drain_filter {fid : ℤ} : ∀ {records : List Decoded} {s t : StreamState}
    {states : List MarketState}, s.Sorted → s.Agree t fid →
      s.drain str batchSize records = .ok states →
        t.drain str batchSize (records.filter (ofFixture fid)) =
          .ok (states.filter fun state => state.fixtureId = fid)
  | [], s, t, states, _, _, h => by
    cases h
    rfl
  | record :: rest, s, t, states, hs, hagree, h => by
    rw [drain] at h
    obtain ⟨key, hkey, h⟩ := bind_eq_ok.mp h
    cases key with
    | none =>
      have hnot : ofFixture fid record = false := by simp [ofFixture, hkey]
      rw [List.filter_cons_of_neg (by simp [hnot])]
      exact drain_filter hs hagree h
    | some key =>
      obtain ⟨g, fields⟩ := key
      obtain ⟨⟨s', completed⟩, hfeed, h⟩ := bind_eq_ok.mp h
      obtain ⟨more, hmore, h⟩ := bind_eq_ok.mp h
      cases Except.ok.inj h
      have hfields := (keyed_some hkey).2
      have hcompleted := hs.completed hfields hfeed
      rw [List.filter_append]
      by_cases hg : g = fid
      · subst hg
        obtain ⟨t', hfeed', hagree'⟩ := hagree.feed hfeed
        have hall : completed.filter (fun state => state.fixtureId = g) = completed :=
          List.filter_eq_self.mpr fun state hstate => decide_eq_true (hcompleted state hstate)
        have hrest := drain_filter (hs.feed hfields hfeed) hagree' hmore
        rw [List.filter_cons_of_pos (by simp [ofFixture, hkey]), drain, hkey, hall]
        simp only [bind, Except.bind, hfeed', hrest]
        rfl
      · have hnone : completed.filter (fun state => state.fixtureId = fid) = [] :=
          List.filter_eq_nil_iff.mpr fun state hstate => by simp [hcompleted state hstate, hg]
        obtain ⟨hbuffer, hseq⟩ := feed_other (Ne.symm hg) hfeed
        rw [List.filter_cons_of_neg (by simp [ofFixture, hkey, hg]), hnone, List.nil_append]
        exact drain_filter (hs.feed hfields hfeed) ⟨hbuffer.trans hagree.1, hseq.trans hagree.2⟩
          hmore

/-- **The states of one fixture** of a stream are those of its records alone. -/
theorem marketstates_filter {records : List Decoded} {states : List MarketState} (fid : ℤ)
    (h : marketstatesFromRecordStream str batchSize records = .ok states) :
    marketstatesFromRecordStream str batchSize (records.filter (ofFixture fid)) =
      .ok (states.filter fun state => state.fixtureId = fid) :=
  StreamState.drain_filter StreamState.sorted_init ⟨rfl, rfl⟩ h

end Veridex.Ingest
