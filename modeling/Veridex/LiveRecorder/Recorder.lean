import Veridex.LiveRecorder.Replay

/-!
# The append-only recorder (`live_recorder/recorder.py`)

A `LiveRecorder` is the in-memory half of a session: the next `sequence_no` and the stream to seal.
Its methods return the recorder and the directory after the call.

`resumeRecorder` returns the directory beside the result, so that a refused resume shows what it
left on disk.
-/

namespace Veridex.Recording

open Veridex.Py Veridex.Lib Veridex.Runtime

variable {F : Type}

/-- `LiveRecorder`. -/
structure LiveRecorder (F : Type) where
  startMeta : LiveRecorderSessionMeta
  seq : ℤ := 0
  events : List (Dict F) := []

/-- `LiveRecorder.__init__`: opens the stream for appending and writes the start meta. -/
def LiveRecorder.open (dir : SessionDir) (startMeta : LiveRecorderSessionMeta) :
    LiveRecorder F × SessionDir :=
  ({ startMeta := startMeta },
    { records := some (dir.records.getD []), metaJson := some startMeta })

variable (format : Json.FloatFormat F) (sha256 : List Char → String)

/-- A row's line. -/
def lineOf (payload : Dict F) : List Char := serializePayload format (.obj payload) ++ ['\n']

/-- `_write_line`, and the row's place in the stream. -/
def LiveRecorder.write (recorder : LiveRecorder F) (dir : SessionDir) (payload : Dict F) :
    LiveRecorder F × SessionDir :=
  ({ recorder with seq := recorder.seq + 1, events := recorder.events ++ [payload] },
    { dir with records := some (dir.records.getD [] ++ lineOf format payload) })

/-- `record`. -/
def LiveRecorder.record (recorder : LiveRecorder F) (dir : SessionDir) (eventLine : Dict F) :
    LiveRecorder F × SessionDir :=
  recorder.write format dir (Json.setField "sequence_no" (.int (recorder.seq + 1)) eventLine)

/-- `int(row[name])`, where the row holds an int. -/
def intAt (row : Dict F) (name : String) : Except PyExc ℤ :=
  match row.lookup name with
  | some (.int n) => .ok n
  | none => .error ⟨.exception, name⟩
  | some _ => .error ⟨.typeError, "int() argument is no int"⟩

/-- `record_and_return_pair`: the pair is read back from the appended row. -/
def LiveRecorder.recordAndReturnPair (recorder : LiveRecorder F) (dir : SessionDir)
    (eventLine : Dict F) : Except PyExc ((ℤ × ℤ) × LiveRecorder F × SessionDir) := do
  let (recorder, dir) := recorder.record format dir eventLine
  let some persisted := recorder.events.getLast? | .error ⟨.exception, "list index out of range"⟩
  let recvTs ← intAt persisted "recv_ts"
  let sequenceNo ← intAt persisted "sequence_no"
  return ((recvTs, sequenceNo), recorder, dir)

/-- `record_gap`. -/
def LiveRecorder.recordGap (recorder : LiveRecorder F) (dir : SessionDir) (fromTs toTs : ℤ)
    (source reason : String) : LiveRecorder F × SessionDir :=
  recorder.write format dir (recorderGapEvent (recorder.seq + 1) fromTs toTs source reason)

/-- `finalize`. -/
def LiveRecorder.finalize (recorder : LiveRecorder F) (dir : SessionDir) (endedTs : ℤ)
    (mappingHash : Option String) (pollIntervalMs : Option ℤ) :
    Except PyExc (LiveRecorderSessionMeta × SessionDir) := do
  let contentHash ← sessionContentHash format sha256 recorder.events
  let sealedMeta := { recorder.startMeta with
    endedTs := some endedTs
    eventCount := some recorder.events.length
    contentHash := some contentHash
    mappingHash := mappingHash.or recorder.startMeta.mappingHash
    pollIntervalMs := pollIntervalMs.or recorder.startMeta.pollIntervalMs }
  return (sealedMeta, { dir with metaJson := some sealedMeta })

/-! ## Resume -/

/-- The pass over the durable rows: whether the last line is cut. -/
def validateRows : Option ℤ → List (List Char) → Except PyExc Bool
  | _, [] => .ok false
  | prevSeq, line :: rest =>
    if line = [] then validateRows prevSeq rest
    else match Json.loads format line with
      | none =>
        if rest = [] then .ok true
        else .error ⟨.valueError, "resume_recorder: malformed NON-final durable row"⟩
      | some (.obj entry) =>
        match entry.lookup "sequence_no" with
        | none => .error ⟨.valueError, "resume_recorder: durable row is missing 'sequence_no'"⟩
        | some (.int seq) =>
          if prevSeq.any (seq ≤ ·) then
            .error ⟨.valueError, "resume_recorder: durable sequence_no is not strictly increasing"⟩
          else validateRows (some seq) rest
        | some _ => .error ⟨.typeError, "'<=' not supported"⟩
      | some _ => .error ⟨.typeError, "a durable row is no object"⟩

/-- The text up to its last newline. -/
def completeLines (raw : List Char) : List Char := raw.rdropWhile (· ≠ '\n')

/-- What the file is left as: without its cut line, or with its last row framed. -/
def repairTail (truncatedTail : Bool) (raw : List Char) : List Char :=
  if truncatedTail then completeLines raw
  else if raw ≠ [] ∧ raw.getLast? ≠ some '\n' then raw ++ ['\n']
  else raw

/-- `resume_recorder`. -/
def resumeRecorder (dir : SessionDir) (sessionMeta : LiveRecorderSessionMeta) :
    Except PyExc (LiveRecorder F) × SessionDir :=
  match dir.metaJson with
  | none => (.error ⟨.exception, "No such file or directory"⟩, dir)
  | some diskMeta =>
    if diskMeta.isStart = false then
      (.error ⟨.valueError, "resume_recorder refuses a finalized or partially-finalized session " ++
        "(terminal evidence, from durable meta.json)"⟩, dir)
    else if sessionMeta.isStart = false then
      (.error ⟨.valueError, "resume_recorder refuses a finalized or partially-finalized session " ++
        "(terminal evidence, from supplied meta)"⟩, dir)
    else if sessionMeta ≠ diskMeta then
      (.error ⟨.valueError, "resume_recorder: supplied meta is inconsistent with the durable " ++
        "meta.json on disk"⟩, dir)
    else
      let raw := dir.records.getD []
      match validateRows format none (splitlines raw) with
      | .error e => (.error e, dir)
      | .ok truncatedTail =>
        let repaired := repairTail truncatedTail raw
        let dir := if repaired = raw then dir else { dir with records := some repaired }
        let (recorder, dir) : LiveRecorder F × SessionDir := LiveRecorder.open dir sessionMeta
        (do
          let (_, events, gaps) ← readSessionStrict format dir
          let seq ← maxSequenceNo format dir
          return { recorder with seq := seq, events := sortBySequence (events ++ gaps) }, dir)

end Veridex.Recording
