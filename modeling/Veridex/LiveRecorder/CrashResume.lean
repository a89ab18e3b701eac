import Veridex.LiveRecorder.Tape

/-!
# Crash and resume

`Records` ties a recorder and its directory to an abstract tape: the stream in memory and the text on
disk are the tape's rows. Every call keeps it (`Records.append`), and so does a crash at any
character followed by a resume (`Records.crash_resume`), whatever the resume had to repair.

Results: `crash_rounds_replay`, `resume_finalized`.
-/

namespace Veridex.Recording

open Veridex.Py Veridex.Lib Veridex.Lib.Json Veridex.Runtime

variable {F : Type} (format : FloatFormat F) (sha256 : List Char → String)

/-- A meta in the START shape. -/
abbrev StartMeta := { sessionMeta : LiveRecorderSessionMeta // sessionMeta.isStart = true }

/-! ## Runs -/

/-- A call on an open recorder. -/
def LiveRecorder.call (recorder : LiveRecorder F) (dir : SessionDir) :
    Call F → LiveRecorder F × SessionDir
  | .record eventLine => recorder.record format dir eventLine
  | .gap fromTs toTs source reason => recorder.recordGap format dir fromTs toTs source reason

/-- Calls, one after the other. -/
def callAll : LiveRecorder F × SessionDir → List (Call F) → LiveRecorder F × SessionDir
  | state, [] => state
  | (recorder, dir), call :: calls => callAll (recorder.call format dir call) calls

/-- A process killed before `finalize`: the first `k` characters of the records are on disk. -/
def crashAt (k : ℕ) (dir : SessionDir) : SessionDir :=
  { dir with records := dir.records.map (List.take k) }

/-- Rounds of calls, a crash and a resume. -/
def runRounds (startMeta : LiveRecorderSessionMeta) :
    LiveRecorder F × SessionDir → List (List (Call F) × ℕ) →
      Except PyExc (LiveRecorder F × SessionDir)
  | state, [] => .ok state
  | state, (calls, k) :: rounds =>
    match resumeRecorder format (crashAt k (callAll format state calls).2) startMeta with
    | (.error e, _) => .error e
    | (.ok recorder, dir) => runRounds startMeta (recorder, dir) rounds

/-- The rows the calls append. -/
def Tape.appendAll (tape : Tape F) (calls : List (Call F)) : Tape F := calls.foldl Tape.append tape

/-- The rows that rounds of calls and crashes leave. -/
def Tape.rounds (tape : Tape F) (rounds : List (List (Call F) × ℕ)) : Tape F :=
  rounds.foldl (fun tape round => (tape.appendAll round.1).crash format round.2) tape

/-! ## Reading a tape's text -/

theorem readLines_tapeText (check : Dict F → Except PyExc Unit) : ∀ {rows : List (Dict F)},
    (∀ row ∈ rows, CanonicalFields row) → (∀ row ∈ rows, check row = .ok ()) →
      readLines format check (rows.map (rowText format)) =
        .ok (rows.filter (!isGap ·), rows.filter isGap)
  | [], _, _ => rfl
  | row :: rows, hcanonical, hcheck => by
    have ih := readLines_tapeText check (fun r hr => hcanonical r (List.mem_cons_of_mem _ hr))
      fun r hr => hcheck r (List.mem_cons_of_mem _ hr)
    rw [List.map_cons, readLines, if_neg (rowText_ne_nil format row),
      loads_rowText format (hcanonical row List.mem_cons_self)]
    cases hgap : isGap row with
    | true => simp [hgap, ih, bind, Except.bind, pure, Except.pure]
    | false => simp [hgap, ih, hcheck row List.mem_cons_self, bind, Except.bind, pure, Except.pure]

theorem splitlines_whole (rows : List (Dict F)) :
    splitlines (tapeText format rows) = rows.map (rowText format) := by
  simpa [splitlines] using splitlines_tapeText format [] rows

/-- The readers split the rows of a tape into events and gap markers. -/
theorem readWith_tape {check : Dict F → Except PyExc Unit} {tape : Tape F}
    {sessionMeta : LiveRecorderSessionMeta} (hcheck : ∀ row ∈ tape.rows, check row = .ok ()) :
    readWith format check ⟨some (tapeText format tape.rows), some sessionMeta⟩ =
      .ok (sessionMeta, tape.rows.filter (!isGap ·), tape.rows.filter isGap) := by
  simp [readWith, splitlines_whole, readLines_tapeText format check tape.canonical hcheck, bind,
    Except.bind, pure, Except.pure]

theorem filter_perm (rows : List (Dict F)) :
    (rows.filter (!isGap ·) ++ rows.filter isGap).Perm rows := by
  have hperm := List.filter_append_perm (fun row : Dict F => !isGap row) rows
  simpa using hperm

theorem Tape.sorted_filter (tape : Tape F) :
    sortBySequence (tape.rows.filter (!isGap ·) ++ tape.rows.filter isGap) = tape.rows :=
  sortBySequence_eq (filter_perm tape.rows) tape.increasing

theorem lookup_of_sequenceNo {row : Dict F} (h : (sequenceNo row).isSome) :
    row.lookup "sequence_no" = some (.int (sequenceKey row)) := by
  rw [sequenceKey]
  unfold sequenceNo at h ⊢
  split at h
  · next n hn => simp [hn]
  · simp at h

theorem Tape.max_filter (tape : Tape F) :
    ((tape.rows.filter (!isGap ·) ++ tape.rows.filter isGap).filterMap sequenceNo).max?.getD 0 =
      tape.lastSeq := by
  have hkeys : ∀ row ∈ tape.rows, sequenceNo row = some (sequenceKey row) := by
    intro row hrow
    obtain ⟨n, hn⟩ := Option.isSome_iff_exists.mp (tape.numbered row hrow)
    simp [sequenceKey, hn]
  have hperm := (filter_perm tape.rows).filterMap sequenceNo
  have hmap : tape.rows.filterMap sequenceNo = tape.rows.map sequenceKey := by
    rw [← List.filterMap_eq_map]
    exact List.filterMap_congr hkeys
  rw [hmap] at hperm
  cases hlast : tape.rows.getLast? with
  | none =>
    have hnil := List.getLast?_eq_none_iff.mp hlast
    simp [Tape.lastSeq, hnil]
  | some last =>
    have hmem : last ∈ tape.rows := List.mem_of_getLast? hlast
    have hmax : tape.lastSeq = sequenceKey last := by simp [Tape.lastSeq, hlast]
    have hsome : ((tape.rows.filter (!isGap ·) ++ tape.rows.filter isGap).filterMap sequenceNo).max? =
        some tape.lastSeq := by
      refine List.max?_eq_some_iff.mpr ⟨?_, ?_⟩
      · exact hperm.mem_iff.mpr (List.mem_map.mpr ⟨last, hmem, hmax.symm⟩)
      · intro n hn
        obtain ⟨row, hrow, rfl⟩ := List.mem_map.mp (hperm.mem_iff.mp hn)
        exact tape.le_lastSeq row hrow
    rw [hsome]
    rfl

/-! ## The resume -/

/-- The pass over whole rows goes on with the last one's number. -/
theorem validateRows_rows {rest : List (List Char)} : ∀ {rows : List (Dict F)} {prev : Option ℤ},
    (∀ row ∈ rows, CanonicalFields row) → (∀ row ∈ rows, (sequenceNo row).isSome) →
      Increasing rows → (∀ row ∈ rows, ∀ p ∈ prev, p < sequenceKey row) →
        validateRows format prev (rows.map (rowText format) ++ rest) =
          validateRows format ((rows.getLast?.map sequenceKey).or prev) rest
  | [], _, _, _, _, _ => rfl
  | row :: rows, prev, hcanonical, hnumbered, hincreasing, hprev => by
    rw [Increasing, List.map_cons, List.pairwise_cons] at hincreasing
    have ih : validateRows format (some (sequenceKey row)) (rows.map (rowText format) ++ rest) = _ :=
      validateRows_rows (fun r hr => hcanonical r (List.mem_cons_of_mem _ hr))
        (fun r hr => hnumbered r (List.mem_cons_of_mem _ hr)) hincreasing.2
        (by
          rintro r hr p ⟨⟩
          exact hincreasing.1 _ (List.mem_map_of_mem hr))
    have hfirst : prev.any (sequenceKey row ≤ ·) = false := by
      cases prev with
      | none => rfl
      | some p => simpa using hprev row List.mem_cons_self p rfl
    rw [List.map_cons, List.cons_append, validateRows, if_neg (rowText_ne_nil format row),
      loads_rowText format (hcanonical row List.mem_cons_self)]
    simp only [lookup_of_sequenceNo (hnumbered row List.mem_cons_self), hfirst]
    rw [if_neg (by simp), ih]
    cases h : rows.getLast? with
    | none => simp [List.getLast?_cons, h]
    | some last => simp [List.getLast?_cons, h]

/-- The text of whole rows is empty or ends in a newline. -/
theorem tapeText_concat (rows : List (Dict F)) (row : Dict F) :
    tapeText format (rows ++ [row]) = tapeText format rows ++ rowText format row ++ ['\n'] := by
  rw [tapeText_append, tapeText_cons]
  simp [tapeText]

theorem completeLines_append {start : List Char} (h : ∀ c ∈ start, isLineBreak c = false)
    (rows : List (Dict F)) :
    completeLines (tapeText format rows ++ start) = tapeText format rows := by
  have hstart : ∀ c ∈ start.reverse, (decide (c ≠ '\n')) = true := by
    intro c hc
    have hbreak := h c (List.mem_reverse.mp hc)
    simp only [decide_eq_true_eq]
    rintro rfl
    simp [isLineBreak] at hbreak
  rw [completeLines, List.rdropWhile, List.reverse_append, List.dropWhile_append_of_pos hstart]
  rcases List.eq_nil_or_concat rows with rfl | ⟨rows, row, rfl⟩
  · rfl
  · simp [List.concat_eq_append, tapeText_concat]

/-- **The resume leaves the text of the surviving rows**, whatever the cut left after them. -/
theorem repair_cut {tape : Tape F} {text : List Char} (h : CutTail format tape.rows text) :
    ∃ truncatedTail, validateRows format none (splitlines text) = .ok truncatedTail ∧
      repairTail truncatedTail text = tapeText format tape.rows := by
  have hvalid : ∀ rest, validateRows format none (tape.rows.map (rowText format) ++ rest) = _ :=
    fun rest => validateRows_rows format tape.canonical tape.numbered tape.increasing (by simp)
  cases h with
  | clean =>
    refine ⟨false, ?_, ?_⟩
    · have hrows := hvalid []
      rw [List.append_nil] at hrows
      rw [splitlines_whole, hrows, validateRows]
    · rcases List.eq_nil_or_concat tape.rows with hrows | ⟨rows, row, hrows⟩
      · simp [hrows, repairTail, tapeText]
      · simp [hrows, repairTail, List.concat_eq_append, tapeText_concat]
  | unterminated rows last hkept =>
    refine ⟨false, ?_, ?_⟩
    · have hrows := hvalid []
      rw [hkept, List.append_nil, List.map_append] at hrows
      rw [splitlines_tapeText, splitlines_last (rowText_unbroken format last)
        (rowText_ne_nil format last)]
      exact hrows.trans (by rw [validateRows])
    · have hne := rowText_ne_nil format last
      have hlast : (tapeText format rows ++ rowText format last).getLast? ≠ some '\n' := by
        intro hnewline
        rw [List.getLast?_append_of_ne_nil _ hne] at hnewline
        have hbreak := rowText_unbroken format last _ (List.mem_of_getLast? hnewline)
        simp [isLineBreak] at hbreak
      rw [hkept, tapeText_concat, repairTail, if_neg (by simp), if_pos ⟨by simp [hne], hlast⟩]
  | startedRow row start rest hstart hrest htext =>
    have hunbroken : ∀ c ∈ start, isLineBreak c = false := fun c hc =>
      rowText_unbroken format row c (htext ▸ List.mem_append_left rest hc)
    have hcut : loads format start = none := loads_prefix format hrest htext
    refine ⟨true, ?_, ?_⟩
    · rw [splitlines_tapeText, splitlines_last hunbroken hstart, hvalid, validateRows,
        if_neg hstart, hcut]
      simp
    · rw [repairTail, if_pos rfl, completeLines_append format hunbroken]

/-! ## The refinement -/

/-- A recorder and its directory hold a tape. -/
structure Records (startMeta : LiveRecorderSessionMeta) (tape : Tape F) (recorder : LiveRecorder F)
    (dir : SessionDir) : Prop where
  startMeta_eq : recorder.startMeta = startMeta
  seq_eq : recorder.seq = tape.lastSeq
  stream : recorder.events.map sortedFields = tape.rows
  disk : dir = ⟨some (tapeText format tape.rows), some startMeta⟩

variable {format} {startMeta : LiveRecorderSessionMeta} {tape : Tape F} {recorder : LiveRecorder F}
  {dir : SessionDir}

theorem records_open : Records format startMeta Tape.empty (LiveRecorder.open ⟨none, none⟩ startMeta).1
    (LiveRecorder.open (F := F) ⟨none, none⟩ startMeta).2 where
  startMeta_eq := rfl
  seq_eq := rfl
  stream := rfl
  disk := rfl

/-- Two payloads with one canonical form are one line. -/
theorem lineOf_sortedFields (payload : Dict F) :
    lineOf format (sortedFields payload) = lineOf format payload := by
  have hsorted : dumps format (.obj (sortedFields payload)) = dumps format (.obj payload) := by
    have h := dumps_sorted format (.obj payload)
    rwa [sorted] at h
  rw [lineOf, lineOf, serializePayload, serializePayload, hsorted]

/-- **A call appends one row**, under the next number. -/
theorem Records.append (h : Records format startMeta tape recorder dir) (call : Call F) :
    Records format startMeta (tape.append call) (recorder.call format dir call).1
      (recorder.call format dir call).2 := by
  have hwrite : Records format startMeta (tape.append call)
      (recorder.write format dir (call.payload (recorder.seq + 1))).1
      (recorder.write format dir (call.payload (recorder.seq + 1))).2 := by
    refine ⟨h.startMeta_eq, ?_, ?_, ?_⟩
    · simp [LiveRecorder.write, h.seq_eq]
    · simp [LiveRecorder.write, Tape.append, h.stream, h.seq_eq]
    · simp [LiveRecorder.write, Tape.append, h.disk, h.seq_eq, tapeText, lineOf_sortedFields]
  cases call with
  | record eventLine => exact hwrite
  | gap fromTs toTs source reason => exact hwrite

theorem Records.appendAll : ∀ (calls : List (Call F)) {tape : Tape F}
    (state : LiveRecorder F × SessionDir), Records format startMeta tape state.1 state.2 →
      Records format startMeta (tape.appendAll calls) (callAll format state calls).1
        (callAll format state calls).2
  | [], _, _, h => h
  | call :: calls, _, (recorder, dir), h => by
    have hrest := Records.appendAll calls (recorder.call format dir call) (h.append call)
    exact hrest

theorem readSession_tape (tape : Tape F) (sessionMeta : LiveRecorderSessionMeta) :
    readSession format ⟨some (tapeText format tape.rows), some sessionMeta⟩ =
      .ok (sessionMeta, tape.rows.filter (!isGap ·), tape.rows.filter isGap) :=
  readWith_tape format fun _ _ => rfl

theorem readSessionStrict_tape (tape : Tape F) (sessionMeta : LiveRecorderSessionMeta) :
    readSessionStrict format ⟨some (tapeText format tape.rows), some sessionMeta⟩ =
      .ok (sessionMeta, tape.rows.filter (!isGap ·), tape.rows.filter isGap) :=
  readWith_tape format fun row hrow => by
    simp [lookup_of_sequenceNo (tape.numbered row hrow)]

theorem maxSequenceNo_tape (tape : Tape F) (sessionMeta : LiveRecorderSessionMeta) :
    maxSequenceNo format ⟨some (tapeText format tape.rows), some sessionMeta⟩ =
      .ok tape.lastSeq := by
  rw [maxSequenceNo, readSession_tape]
  exact congrArg Except.ok tape.max_filter

/-- **A resume after a crash** finds the surviving rows and goes on after the last of them. -/
theorem resume_cut (hstart : startMeta.isStart = true) {text : List Char}
    (h : CutTail format tape.rows text) :
    ∃ recorder, resumeRecorder format ⟨some text, some startMeta⟩ startMeta =
      (.ok recorder, ⟨some (tapeText format tape.rows), some startMeta⟩) ∧
        Records format startMeta tape recorder ⟨some (tapeText format tape.rows), some startMeta⟩ := by
  obtain ⟨truncatedTail, hvalid, hrepair⟩ := repair_cut format h
  refine ⟨⟨startMeta, tape.lastSeq, tape.rows⟩, ?_, rfl, rfl, ?_, rfl⟩
  · have hdir : (if repairTail truncatedTail text = text then (⟨some text, some startMeta⟩ : SessionDir)
        else { records := some (repairTail truncatedTail text), metaJson := some startMeta }) =
        ⟨some (tapeText format tape.rows), some startMeta⟩ := by
      split_ifs with heq
      · rw [← hrepair, heq]
      · rw [hrepair]
    simp only [resumeRecorder, hstart, Option.getD_some, hvalid, hdir, LiveRecorder.open,
      readSessionStrict_tape, maxSequenceNo_tape]
    simp [bind, Except.bind, pure, Except.pure, tape.sorted_filter]
  · exact (List.map_congr_left fun row hrow => (tape.canonical row hrow).sortedFields_eq).trans
      (List.map_id' _)

theorem Records.crash_resume (hstart : startMeta.isStart = true)
    (h : Records format startMeta tape recorder dir) (k : ℕ) :
    ∃ recorder' dir', resumeRecorder format (crashAt k dir) startMeta = (.ok recorder', dir') ∧
      Records format startMeta (tape.crash format k) recorder' dir' := by
  have hcut : CutTail format (tape.crash format k).rows ((tapeText format tape.rows).take k) :=
    take_tapeText format tape.rows k
  obtain ⟨recorder', hresume, hrecords⟩ := resume_cut hstart hcut
  refine ⟨recorder', _, ?_, hrecords⟩
  rw [h.disk]
  exact hresume

/-- **Every run of rounds** succeeds and holds the tape the calls and the cuts leave. -/
theorem Records.runRounds (hstart : startMeta.isStart = true) :
    ∀ (rounds : List (List (Call F) × ℕ)) {tape : Tape F} {recorder : LiveRecorder F}
      {dir : SessionDir}, Records format startMeta tape recorder dir →
        ∃ recorder' dir', runRounds format startMeta (recorder, dir) rounds = .ok (recorder', dir') ∧
          Records format startMeta (tape.rounds format rounds) recorder' dir'
  | [], _, recorder, dir, h => ⟨recorder, dir, rfl, h⟩
  | (calls, k) :: rounds, tape, recorder, dir, h => by
    obtain ⟨resumed, dir₁, hresume, hresumed⟩ := (Records.appendAll calls (recorder, dir) h).crash_resume hstart k
    obtain ⟨recorder', dir', hrun, hrecords⟩ := Records.runRounds hstart rounds hresumed
    refine ⟨recorder', dir', ?_, hrecords⟩
    rw [Recording.runRounds, hresume]
    exact hrun

/-! ## The seal -/

theorem sortedItems_map_obj : ∀ rows : List (Dict F),
    sortedItems (rows.map .obj) = (rows.map sortedFields).map .obj
  | [] => rfl
  | row :: rows => by
    rw [List.map_cons, sortedItems, sortedItems_map_obj rows, sorted]
    rfl

/-- The stream in memory and the rows of the tape are one text. -/
theorem Records.serializePayload_eq (h : Records format startMeta tape recorder dir) :
    serializePayload format (.arr (recorder.events.map .obj)) =
      serializePayload format (.arr (tape.rows.map .obj)) := by
  have hrows : tape.rows.map sortedFields = tape.rows :=
    (List.map_congr_left fun row hrow => (tape.canonical row hrow).sortedFields_eq).trans
      (List.map_id' _)
  rw [serializePayload, serializePayload, dumps, dumps, sorted, sorted, sortedItems_map_obj,
    sortedItems_map_obj, h.stream, hrows]

/-- The digest a session with these rows is sealed with. -/
def sealedHash (format : FloatFormat F) (sha256 : List Char → String) (tape : Tape F) : String :=
  sha256 (serializePayload format (.arr (tape.rows.map .obj)))

theorem Records.sessionContentHash_eq (h : Records format startMeta tape recorder dir) :
    sessionContentHash format sha256 recorder.events = .ok (sealedHash format sha256 tape) := by
  have hincreasing : Increasing recorder.events := by
    have htape := tape.increasing
    rw [← h.stream, Increasing, List.map_map] at htape
    simpa [Increasing, Function.comp_def] using htape
  have hnumbered : ∀ event ∈ recorder.events, (sequenceNo event).isSome := by
    intro event hevent
    have hrow := tape.numbered (sortedFields event) (h.stream ▸ List.mem_map_of_mem hevent)
    simpa using hrow
  rw [sessionContentHash, computeEvidenceHash_increasing format sha256 (List.Perm.refl _)
    hincreasing hnumbered, h.serializePayload_eq, sealedHash]

theorem sessionContentHash_tape (tape : Tape F) :
    sessionContentHash format sha256 (tape.rows.filter (!isGap ·) ++ tape.rows.filter isGap) =
      .ok (sealedHash format sha256 tape) :=
  computeEvidenceHash_increasing format sha256 (filter_perm tape.rows) tape.increasing tape.numbered

/-- **A sealed session replays** to the hash it was sealed with. -/
theorem Records.finalize (h : Records format startMeta tape recorder dir) (endedTs : ℤ)
    (mappingHash : Option String) (pollIntervalMs : Option ℤ) :
    ∃ sealedMeta, recorder.finalize format sha256 dir endedTs mappingHash pollIntervalMs =
        .ok (sealedMeta, { dir with metaJson := some sealedMeta }) ∧
      sealedMeta.endedTs = some endedTs ∧
      replayReproduces format sha256 { dir with metaJson := some sealedMeta } = .ok true := by
  refine ⟨{ recorder.startMeta with
    endedTs := some endedTs
    eventCount := some recorder.events.length
    contentHash := some (sealedHash format sha256 tape)
    mappingHash := mappingHash.or recorder.startMeta.mappingHash
    pollIntervalMs := pollIntervalMs.or recorder.startMeta.pollIntervalMs }, ?_, rfl, ?_⟩
  · simp [LiveRecorder.finalize, h.sessionContentHash_eq, bind, Except.bind, pure, Except.pure]
  · simp [replayReproduces, h.disk, readSession_tape, sessionContentHash_tape, bind, Except.bind,
      pure, Except.pure]

/-- **A sealed session is never reopened**, and stays as it is. -/
theorem resume_finalized (format : FloatFormat F) (dir : SessionDir) {diskMeta : LiveRecorderSessionMeta}
    (hdisk : dir.metaJson = some diskMeta) (hsealed : diskMeta.endedTs.isSome)
    (supplied : LiveRecorderSessionMeta) :
    ∃ e, resumeRecorder format dir supplied = (.error e, dir) := by
  have hstart : diskMeta.isStart = false := by
    simp [LiveRecorderSessionMeta.isStart, Option.isNone_eq_false_iff.mpr hsealed]
  simp [resumeRecorder, hdisk, hstart]

/-- **A session survives any number of crashes**: every resume succeeds, the session holds exactly
the rows whose text survived every crash, in order, and those appended since; their numbers
increase, the next one is the greatest plus one, the seal replays, and a sealed session is never
reopened. -/
theorem crash_rounds_replay (format : FloatFormat F) (sha256 : List Char → String)
    (startMeta : StartMeta) (rounds : List (List (Call F) × ℕ)) (calls : List (Call F))
    (endedTs : ℤ) (mappingHash : Option String) (pollIntervalMs : Option ℤ) :
    let tape := (Tape.empty.rounds format rounds).appendAll calls
    ∃ resumed recorder dir,
      Recording.runRounds format startMeta.1 (LiveRecorder.open ⟨none, none⟩ startMeta.1) rounds =
        .ok resumed ∧
      callAll format resumed calls = (recorder, dir) ∧
      readSession format dir =
        .ok (startMeta.1, tape.rows.filter (!isGap ·), tape.rows.filter isGap) ∧
      Increasing tape.rows ∧
      (∀ row ∈ tape.rows, sequenceNo row = some (sequenceKey row)) ∧
      maxSequenceNo format dir = .ok recorder.seq ∧
      ∃ sealedMeta sealedDir,
        recorder.finalize format sha256 dir endedTs mappingHash pollIntervalMs =
          .ok (sealedMeta, sealedDir) ∧
        sealedDir = { dir with metaJson := some sealedMeta } ∧
        replayReproduces format sha256 sealedDir = .ok true ∧
        ∀ supplied, ∃ e, resumeRecorder format sealedDir supplied = (.error e, sealedDir) := by
  intro tape
  have hopen : Records format startMeta.1 Tape.empty (LiveRecorder.open ⟨none, none⟩ startMeta.1).1
      (LiveRecorder.open (F := F) ⟨none, none⟩ startMeta.1).2 := records_open
  obtain ⟨resumed, dir₀, hrun, hresumed⟩ := Records.runRounds startMeta.2 rounds hopen
  have hrecords := Records.appendAll calls (resumed, dir₀) hresumed
  obtain ⟨sealedMeta, hfinalize, hended, hreplay⟩ := hrecords.finalize sha256 endedTs mappingHash
    pollIntervalMs
  refine ⟨(resumed, dir₀), _, _, hrun, rfl, ?_, tape.increasing, ?_, ?_, sealedMeta, _, hfinalize,
    rfl, hreplay, ?_⟩
  · rw [hrecords.disk, readSession_tape]
  · intro row hrow
    obtain ⟨n, hn⟩ := Option.isSome_iff_exists.mp (tape.numbered row hrow)
    simp [sequenceKey, hn]
  · rw [hrecords.disk, maxSequenceNo_tape, hrecords.seq_eq]
  · exact resume_finalized format _ rfl (by simp [hended])

end Veridex.Recording
