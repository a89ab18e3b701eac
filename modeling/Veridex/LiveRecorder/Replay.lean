import Veridex.Py.Text
import Veridex.Runtime.Evidence

/-!
# The session on disk and its readers (`live_recorder/contracts.py`, `replay.py`)

A session directory holds `records.jsonl`, one JSON object a line, and `meta.json`.

* `records` is the file's characters: every text a recorder writes is printable ASCII
  (`Json.dumps_printable`), so a character is a byte.
* `meta.json` is the meta it parses to.
* A dictionary of the meta is a `Finmap`, so that two metas compare as the sources compare them.
* A durable `sequence_no` that is no int raises: the recorder writes none.
-/

namespace Veridex.Recording

open Veridex.Py Veridex.Lib Veridex.Runtime

/-! ## Contracts -/

/-- `LiveRecorderSessionMeta`. -/
structure LiveRecorderSessionMeta where
  sessionTs : ℤ
  endpoints : Finmap fun _ : String => String
  toolVersion : String
  configHash : String
  sourceProvenance : Finmap fun _ : String => String
  fixtureIds : List ℤ
  mappingHash : Option String := none
  pollIntervalMs : Option ℤ := none
  tradesRecorded : Bool := false
  eventCount : Option ℕ := none
  contentHash : Option String := none
  endedTs : Option ℤ := none
  deriving DecidableEq

/-- The START shape: nothing of a seal is there. -/
def LiveRecorderSessionMeta.isStart (sessionMeta : LiveRecorderSessionMeta) : Bool :=
  sessionMeta.endedTs.isNone && sessionMeta.eventCount.isNone && sessionMeta.contentHash.isNone

variable {F : Type}

/-- `RecorderGapEvent`, dumped. -/
def recorderGapEvent (sequenceNo fromTs toTs : ℤ) (source reason : String) : Dict F :=
  [("sequence_no", .int sequenceNo), ("event_type", .str "RecorderGapEvent"), ("source_ts", .null),
    ("recv_ts", .int toTs), ("from_ts", .int fromTs), ("to_ts", .int toTs),
    ("source", .str source), ("reason", .str reason)]

/-- A session directory. -/
structure SessionDir where
  records : Option (List Char)
  metaJson : Option LiveRecorderSessionMeta
  deriving DecidableEq

/-! ## The readers -/

/-- The row is a gap marker. -/
def isGap (entry : Dict F) : Bool :=
  match entry.lookup "event_type" with
  | some (.str name) => name = "RecorderGapEvent"
  | _ => false

variable (format : Json.FloatFormat F)

/-- The rows of some lines, the gap markers apart: only the last line may be cut. -/
def readLines (check : Dict F → Except PyExc Unit) :
    List (List Char) → Except PyExc (List (Dict F) × List (Dict F))
  | [] => .ok ([], [])
  | line :: rest =>
    if line = [] then readLines check rest
    else match Json.loads format line with
      | none =>
        if rest = [] then .ok ([], []) else .error ⟨.valueError, "malformed NON-final row"⟩
      | some (.obj entry) =>
        if isGap entry then do
          let (events, gaps) ← readLines check rest
          return (events, entry :: gaps)
        else do
          check entry
          let (events, gaps) ← readLines check rest
          return (entry :: events, gaps)
      | some _ => .error ⟨.attributeError, "object has no attribute 'get'"⟩

/-- What a reader of a session returns. -/
def readWith (check : Dict F → Except PyExc Unit) (dir : SessionDir) :
    Except PyExc (LiveRecorderSessionMeta × List (Dict F) × List (Dict F)) := do
  let some sessionMeta := dir.metaJson | .error ⟨.exception, "No such file or directory"⟩
  let some text := dir.records | .error ⟨.exception, "No such file or directory"⟩
  let (events, gaps) ← readLines format check (splitlines text)
  return (sessionMeta, events, gaps)

/-- `read_session`. -/
def readSession (dir : SessionDir) :
    Except PyExc (LiveRecorderSessionMeta × List (Dict F) × List (Dict F)) :=
  readWith format (fun _ => .ok ()) dir

/-- `read_session_strict`. -/
def readSessionStrict (dir : SessionDir) :
    Except PyExc (LiveRecorderSessionMeta × List (Dict F) × List (Dict F)) :=
  readWith format (fun entry =>
    if (entry.lookup "sequence_no").isSome then .ok ()
    else .error ⟨.valueError, "read_session_strict: non-gap event row is missing 'sequence_no'"⟩) dir

/-- `max_sequence_no`. -/
def maxSequenceNo (dir : SessionDir) : Except PyExc ℤ := do
  let (_, events, gaps) ← readSession format dir
  return ((events ++ gaps).filterMap sequenceNo).max?.getD 0

variable (sha256 : List Char → String)

/-- `session_content_hash`. -/
def sessionContentHash (events : List (Dict F)) : Except PyExc String :=
  computeEvidenceHash format sha256 events

/-- `replay_reproduces`. -/
def replayReproduces (dir : SessionDir) : Except PyExc Bool := do
  let (sessionMeta, events, gaps) ← readSession format dir
  match sessionMeta.contentHash with
  | none => return false
  | some contentHash => return contentHash = (← sessionContentHash format sha256 (events ++ gaps))

end Veridex.Recording
