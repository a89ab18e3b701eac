import Veridex.Lib.Json.Spaced
import Veridex.Py.Text
import Veridex.Runtime.Schemas

/-!
# The durable spool of runtime events (`runtime/runtime_store.py`)

`enqueue` writes an event's line to a WAL and queues the event, a flush commits a batch of the queue to
the store and moves a cursor that counts WAL lines, and `start` queues the lines from the cursor on.
A flush is cut where it awaits the store: `flushBegin` pops the batch, `flushEnd` is what the store's
answer does. An object is a `DurableRuntimeEventStore`; all share one directory and one store.

An event's payload holds JSON values. The cursor's file is replaced whole, so it is the number it holds.
A WAL write that raises has written nothing.
-/

namespace Veridex.Runtime

open Veridex.Py Veridex.Lib

/-- `RuntimeEvent`. -/
structure RuntimeEvent where
  type : String
  agentId : String
  runId : Option String
  sessionId : Option String
  ts : ℤ
  channel : String := "OPS"
  payload : Params
  distinct : Json.Distinct (.obj payload : Decoded)

/-- `RuntimeEventRow`, without the id the store assigns: its place in the store. -/
structure RuntimeEventRow where
  eventUuid : String
  agentId : Decoded
  runId : Decoded
  sessionId : Decoded
  eventType : Decoded
  ts : ℤ
  channel : Decoded
  payload : Decoded

/-- The row of an event, under the id it is given. -/
def RuntimeEvent.row (event : RuntimeEvent) (uuid : String) : RuntimeEventRow where
  eventUuid := uuid
  agentId := .str event.agentId
  runId := optionalText event.runId
  sessionId := optionalText event.sessionId
  eventType := .str event.type
  ts := event.ts
  channel := .str event.channel
  payload := .obj event.payload

section

variable (format : Json.FloatFormat PyFloat)

/-- The fields of a row's line. -/
def RuntimeEventRow.fields (row : RuntimeEventRow) : Params :=
  [("event_uuid", .str row.eventUuid), ("agent_id", row.agentId), ("run_id", row.runId),
    ("session_id", row.sessionId), ("event_type", row.eventType), ("ts", .int row.ts),
    ("channel", row.channel), ("payload", row.payload)]

/-- A row's line, without its newline. -/
def RuntimeEventRow.line (row : RuntimeEventRow) : List Char := Json.spaced format (.obj row.fields)

/-- The row a parsed line holds. -/
def rowOfLine (d : Decoded) : Except PyExc RuntimeEventRow := do
  let .str eventUuid ← d.item (.str "event_uuid")
    | .error ⟨.typeError, "event_uuid is not a text"⟩
  let agentId ← d.item (.str "agent_id")
  let runId ← d.get "run_id" .null
  let sessionId ← d.get "session_id" .null
  let eventType ← d.item (.str "event_type")
  let ts ← (← d.item (.str "ts")).toInt
  let channel ← d.get "channel" (.str "OPS")
  let payload ← d.get "payload" .null
  return {
    eventUuid := eventUuid
    agentId := agentId
    runId := runId
    sessionId := sessionId
    eventType := eventType
    ts := ts
    channel := channel
    payload := if payload.truthy then payload else .obj [] }

/-- A line of the WAL: a blank one and one that does not parse are skipped. -/
def readWalRow (line : List Char) : Except PyExc (Option RuntimeEventRow) :=
  let line := (strip (String.ofList line)).toList
  if line = [] then .ok none
  else match Json.loads format line with
    | none => .ok none
    | some d => return some (← rowOfLine d)

/-- `_read_wal_rows`. -/
def readWalRows (wal : List Char) : Except PyExc (List RuntimeEventRow) := do
  return (← (splitlines wal).mapM (readWalRow format)).filterMap id

/-- `append_runtime_events`: a row whose id is stored is skipped. -/
def appendRuntimeEvents (stored rows : List RuntimeEventRow) : List RuntimeEventRow :=
  rows.foldl (fun stored row =>
    if row.eventUuid ∈ stored.map (·.eventUuid) then stored else stored ++ [row]) stored

/-- `_PendingEntry`. -/
structure PendingEntry where
  row : RuntimeEventRow
  walBacked : Bool

/-- A flush that awaits the store, or was cancelled there. -/
structure Flight where
  batch : List PendingEntry
  byLoop : Bool
  fsyncOk : Bool
  cancelled : Bool := false

/-- Whether an object was started and closed: `_running` is that it was started last. -/
inductive Life where
  | fresh
  | running
  | closed
  deriving DecidableEq, Repr

/-- `DurableRuntimeEventStore`. -/
structure DurableRuntimeEventStore where
  batchSize : ℕ := 128
  pending : List PendingEntry := []
  committedLines : ℕ
  degraded : Bool := false
  durabilityFault : Bool := false
  flushFailures : ℕ := 0
  life : Life := .fresh
  flights : List Flight := []

/-- The directory, the store, and the objects of the process. -/
structure Spool where
  wal : List Char := []
  cursor : ℕ := 0
  stored : List RuntimeEventRow := []
  objects : List DurableRuntimeEventStore := []

namespace DurableRuntimeEventStore

/-- `enqueue`, after its write. -/
def enqueue (d : DurableRuntimeEventStore) (row : RuntimeEventRow) (written : Bool) :
    DurableRuntimeEventStore :=
  { d with
    pending := d.pending ++ [⟨row, written⟩]
    degraded := d.degraded || !written
    flushFailures := if written then d.flushFailures else d.flushFailures + 1 }

/-- `flush_once` up to the await of the store. -/
def flushBegin (d : DurableRuntimeEventStore) (byLoop fsyncOk : Bool) : DurableRuntimeEventStore :=
  if d.pending = [] then d
  else { d with
    pending := d.pending.drop d.batchSize
    flights := d.flights ++ [{ batch := d.pending.take d.batchSize, byLoop := byLoop, fsyncOk := fsyncOk }]
    durabilityFault := d.durabilityFault || !fsyncOk
    flushFailures := if fsyncOk then d.flushFailures else d.flushFailures + 1 }

/-- `flush_once` after the store has raised: the batch is queued again at the front. -/
def flushFailed (d : DurableRuntimeEventStore) (flight : Flight) : DurableRuntimeEventStore :=
  { d with
    pending := flight.batch ++ d.pending
    degraded := true
    flushFailures := d.flushFailures + 1 }

/-- `flush_once` after the store has taken the batch. -/
def flushCommitted (d : DurableRuntimeEventStore) (flight : Flight) (cursorOk : Bool) :
    DurableRuntimeEventStore :=
  { d with
    committedLines := d.committedLines + (flight.batch.filter (·.walBacked)).length
    durabilityFault := if flight.fsyncOk && cursorOk then false else d.durabilityFault || !cursorOk
    degraded := if d.pending = [] then false else d.degraded
    flushFailures := if cursorOk then d.flushFailures else d.flushFailures + 1 }

/-- `aclose`, as far as its drain: the loop's flush is cancelled where it awaits. -/
def cancelLoop (d : DurableRuntimeEventStore) : DurableRuntimeEventStore :=
  { d with
    life := if d.life = .running then .closed else d.life
    flights := d.flights.map fun flight =>
      if flight.byLoop then { flight with cancelled := true } else flight }

end DurableRuntimeEventStore

/-- `recover`: the rows from the cursor on. -/
def Spool.replayable (s : Spool) : Except PyExc (List RuntimeEventRow) := do
  return (← readWalRows format s.wal).drop s.cursor

/-- `start` of an object: a running one is left, and `recover` may raise. -/
def Spool.start (s : Spool) (d : DurableRuntimeEventStore) : DurableRuntimeEventStore :=
  if d.life = .running then d
  else match s.replayable format with
    | .error _ => { d with life := .running, committedLines := s.cursor }
    | .ok tail => { d with
      life := .running
      committedLines := s.cursor
      pending := d.pending ++ tail.map fun row => ⟨row, true⟩ }

/-- What the store does with a batch it awaits. -/
inductive Append where
  /-- It takes the batch. -/
  | committed
  /-- It raises, having taken the batch or not. -/
  | raised (landed : Bool)

/-- An operation on the spool. -/
inductive SpoolOp where
  /-- A new object. -/
  | construct (batchSize : ℕ)
  | enqueue (object : ℕ) (event : RuntimeEvent) (uuid : String) (written : Bool)
  | start (object : ℕ)
  | flushBegin (object : ℕ) (byLoop fsyncOk : Bool)
  | flushEnd (object flight : ℕ) (answer : Append) (cursorOk : Bool)
  /-- `aclose` cancels the loop; the awaited batches of the loop landed or not. -/
  | cancelLoop (object : ℕ) (landed : Bool)
  /-- The process dies, perhaps while the line of an event is written. -/
  | crash (event : RuntimeEvent) (uuid : String) (kept : ℕ)

/-- The spool after an operation, if it can take place. -/
def Spool.act (s : Spool) : SpoolOp → Option Spool
  | .construct batchSize =>
    some { s with objects := s.objects ++ [{ batchSize := batchSize, committedLines := s.cursor }] }
  | .enqueue i event uuid written => do
    let d ← s.objects[i]?
    let row := event.row uuid
    return { s with
      wal := if written then s.wal ++ row.line format ++ ['\n'] else s.wal
      objects := s.objects.set i (d.enqueue row written) }
  | .start i => do
    let d ← s.objects[i]?
    return { s with objects := s.objects.set i (s.start format d) }
  | .flushBegin i byLoop fsyncOk => do
    let d ← s.objects[i]?
    -- the loop awaits one flush at a time, and only while it runs
    guard (byLoop → d.life = .running ∧ d.flights.all fun flight => !flight.byLoop || flight.cancelled)
    return { s with objects := s.objects.set i (d.flushBegin byLoop fsyncOk) }
  | .flushEnd i k answer cursorOk => do
    let d ← s.objects[i]?
    let flight ← d.flights[k]?
    guard (flight.cancelled = false)
    let rows := flight.batch.map (·.row)
    let d := { d with flights := d.flights.eraseIdx k }
    match answer with
    | .committed =>
      let d := d.flushCommitted flight cursorOk
      return { s with
        stored := appendRuntimeEvents s.stored rows
        cursor := if cursorOk then d.committedLines else s.cursor
        objects := s.objects.set i d }
    | .raised landed =>
      return { s with
        stored := if landed then appendRuntimeEvents s.stored rows else s.stored
        objects := s.objects.set i (d.flushFailed flight) }
  | .cancelLoop i landed => do
    let d ← s.objects[i]?
    let awaited := (d.flights.filter fun flight => flight.byLoop && !flight.cancelled).flatMap (·.batch)
    return { s with
      stored := if landed then appendRuntimeEvents s.stored (awaited.map (·.row)) else s.stored
      objects := s.objects.set i d.cancelLoop }
  | .crash event uuid kept =>
    some { s with
      wal := s.wal ++ ((event.row uuid).line format).take kept
      objects := [] }

end

end Veridex.Runtime
