import Veridex.Ingest.PackFromSession

/-!
# The capture chain (`ingest/capture_chain.py`)

One call reads a stream, appends its records to the session in `session_dir`, and builds a pack of that
session in `out_dir`. Session and pack directories are kept apart, each by its own key: the files of
the two have different names.

* What is outside is a call's input: the credentials, the client, the connection, each line with the
  clock at it and what the bounds say after it, and how a stream ends that nothing stops.
* The deadline and `stop_requested` are one poll; `records_target` is checked before it, as in the loop.
* `str` is what the interpreter's `str` writes of a value that is no text.
-/

namespace Veridex.Ingest

open Veridex.Py Veridex.Lib Veridex.Runtime

/-! ## Lines -/

section

variable (format : Json.FloatFormat PyFloat)

/-- `parse_sse_line`. -/
def parseSseLine (line : String) : Option Params :=
  let stripped := strip line
  if stripped.isEmpty || stripped.startsWith ":" || stripped.startsWith "event:" then none
  else if !stripped.startsWith "data:" then none
  else match Json.loads format (strip (String.ofList (stripped.toList.drop 5))).toList with
    | some (.obj record) => some record
    | _ => none

/-- A line of the stream: the clock when it was read, and what the deadline and `stop_requested` say
after it. -/
structure Arrival where
  line : String
  now : ℤ
  poll : Except PyExc Bool

/-- What the loop has counted. -/
structure Heard where
  records : List (Params × ℤ) := []
  heartbeats : ℕ := 0
  lastFrameTs : ℤ

/-- One line. -/
def Heard.hear (heard : Heard) (arrival : Arrival) : Heard :=
  match parseSseLine format arrival.line with
  | some record => { heard with
      records := heard.records ++ [(record, arrival.now)]
      lastFrameTs := arrival.now }
  | none =>
    if (strip arrival.line).startsWith ":" then
      { heard with heartbeats := heard.heartbeats + 1, lastFrameTs := arrival.now }
    else heard

/-- The loop, and how it ends. -/
def listen (recordsTarget : Option ℤ) (ended : Except PyExc Unit) :
    Heard → List Arrival → Heard × Except PyExc Unit
  | heard, [] => (heard, ended)
  | heard, arrival :: rest =>
    let heard := heard.hear format arrival
    if recordsTarget.any fun target : ℤ => target ≤ heard.records.length then (heard, .ok ())
    else match arrival.poll with
      | .error e => (heard, .error e)
      | .ok true => (heard, .ok ())
      | .ok false => listen recordsTarget ended heard rest

end

/-! ## Authority and feed state -/

/-- `_authority_for_source`: by the source's exact type. -/
def authorityForSource (live : Bool) : PackAuthority :=
  if live then {
    provenance := genuineTxlineProvenance
    testCapture := false
    synthetic := false
    evidenceRung := some "recorded-live-quote"
    captureMethod := "live-sse-stream"
    sealToken := true }
  else {
    provenance := testFakeProvenance
    testCapture := true
    synthetic := false
    evidenceRung := none
    captureMethod := "recording-fake" }

/-- `FeedState`. -/
inductive FeedState where
  | connecting
  | live
  | heartbeatOnly
  | stale
  | disconnected
  | recordedReplay
  deriving DecidableEq, Repr

/-- `derive_feed_state`, of a connected feed whose last frame is now. -/
def deriveFeedState (oddsRecords heartbeats : ℕ) (staleAfterS : ℤ) : FeedState :=
  if staleAfterS < 0 then .stale
  else if 0 < oddsRecords then .live
  else if 0 < heartbeats then .heartbeatOnly
  else .connecting

/-! ## A call -/

/-- The inputs of a call. -/
structure Capture (σ δ : Type) where
  live : Bool
  sessionDir : σ
  outDir : δ
  toolVersion : String
  staleAfterS : ℤ := 30
  recordsTarget : Option ℤ := none
  credentials : Except PyExc Unit := .ok ()
  startedTs : ℤ
  client : Except PyExc Unit := .ok ()
  connected : Except PyExc Unit := .ok ()
  arrivals : List Arrival
  ended : Except PyExc Unit := .ok ()
  closed : Except PyExc Unit := .ok ()

/-- `CaptureResult`. -/
structure CaptureResult (δ : Type) where
  pack : Option ReplayPack
  packDir : Option δ
  provenance : String
  feedState : FeedState
  oddsRecords : ℕ
  heartbeats : ℕ

/-- Every session and every pack directory. -/
structure Disk (σ δ : Type) where
  sessions : σ → SessionDir
  packs : δ → PackDir

/-- No file anywhere. -/
def Disk.empty (σ δ : Type) : Disk σ δ where
  sessions _ := ⟨none, none, fun _ => none⟩
  packs _ := ⟨fun _ => none⟩

variable {σ δ : Type} [DecidableEq σ] [DecidableEq δ]

/-- `meta.json` is written. -/
def Disk.writeMeta (disk : Disk σ δ) (dir : σ) (sessionMeta : SessionMeta) : Disk σ δ where
  sessions := Function.update disk.sessions dir
    { disk.sessions dir with metaJson := some sessionMeta }
  packs := disk.packs

/-- Text is appended to `records.jsonl`, which is made if it is not there. -/
def Disk.append (disk : Disk σ δ) (dir : σ) (text : List Char) : Disk σ δ where
  sessions := Function.update disk.sessions dir { disk.sessions dir with
    records := some ((disk.sessions dir).records.getD [] ++ encode text) }
  packs := disk.packs

/-- A pack directory is rewritten. -/
def Disk.writePack (disk : Disk σ δ) (dir : δ) (pack : PackDir) : Disk σ δ where
  sessions := disk.sessions
  packs := Function.update disk.packs dir pack

section

variable (format : Json.FloatFormat PyFloat) (sha256 : List UInt8 → String) (str : Decoded → String)

/-- What a call hears of its stream, if it connects. -/
def Capture.heard (call : Capture σ δ) : Heard × Except PyExc Unit :=
  listen format call.recordsTarget call.ended { lastFrameTs := call.startedTs } call.arrivals

/-- The records parsed from a call's stream. -/
def Capture.own (call : Capture σ δ) : List Params := (call.heard format).1.records.map Prod.fst

/-- The lines a call appends. -/
def Capture.lines (call : Capture σ δ) : List Char :=
  (call.heard format).1.records.flatMap fun record =>
    envelopeLine format record.1 record.2 ++ ['\n']

/-- `str(fid)`. -/
def strOf (v : Decoded) : String :=
  match v with
  | .str s => s
  | v => str v

/-- `counts[key] = counts.get(key, 0) + 1`. -/
def bump (key : String) : List (String × ℕ) → List (String × ℕ)
  | [] => [(key, 1)]
  | (k, n) :: rest => if k = key then (k, n + 1) :: rest else (k, n) :: bump key rest

/-- `record_counts`. -/
def recordCounts (records : List Params) : List (String × ℕ) :=
  records.foldl (fun counts record =>
    match got record "FixtureId" with
    | .null => counts
    | fid => bump (strOf str fid) counts) []

/-- The metadata a call starts with. -/
def Capture.startMeta (call : Capture σ δ) : SessionMeta where
  startedTs := call.startedTs
  endpoints := ["/odds/stream"]
  toolVersion := call.toolVersion

/-- What a call makes of what it heard, once the stream is closed. -/
def Disk.mint (disk : Disk σ δ) (call : Capture σ δ) (heard : Heard) :
    Disk σ δ × Except PyExc (CaptureResult δ) :=
  let result : CaptureResult δ := {
    pack := none
    packDir := none
    provenance := (authorityForSource call.live).provenance
    feedState := deriveFeedState heard.records.length heard.heartbeats call.staleAfterS
    oddsRecords := heard.records.length
    heartbeats := heard.heartbeats }
  match finalizeMeta call.startMeta heard.lastFrameTs
      (recordCounts str (heard.records.map Prod.fst)) with
  | .error e => (disk, .error e)
  | .ok sessionMeta =>
    let disk := disk.writeMeta call.sessionDir sessionMeta
    if heard.records.isEmpty then (disk, .ok result)
    else
      let (dir, built) := packFromSession format sha256 (disk.sessions call.sessionDir)
        (disk.packs call.outDir) (some (authorityForSource call.live))
      (disk.writePack call.outDir dir, do
        return { result with pack := some (← built), packDir := some call.outDir })

/-- `run_capture_chain`: the disk it leaves, and what it returns or raises. -/
def Disk.runCaptureChain (disk : Disk σ δ) (call : Capture σ δ) :
    Disk σ δ × Except PyExc (CaptureResult δ) :=
  match call.credentials with
  | .error e => (disk, .error e)
  | .ok () =>
    let disk := disk.writeMeta call.sessionDir call.startMeta
    match call.client with
    | .error e => (disk, .error e)
    | .ok () =>
      match call.connected with
      | .error e =>
        (disk.append call.sessionDir [], (do call.closed; .error e))
      | .ok () =>
        let disk := disk.append call.sessionDir (call.lines format)
        match (call.heard format).2, call.closed with
        | _, .error e => (disk, .error e)
        | .error e, .ok () => (disk, .error e)
        | .ok (), .ok () => disk.mint format sha256 str call (call.heard format).1

/-- `v is False`. -/
def isFalse : Decoded → Bool
  | .bool b => !b
  | _ => false

/-- `is_genuine_pack`. -/
def isGenuinePack (dir : PackDir) : Except PyExc Bool :=
  match dir.manifest format with
  | .error e => if e = fileNotFoundError ∨ e = jsonDecodeError then .ok false else .error e
  | .ok manifest => do
    if (← intOf (← manifest.get "pack_version" (.int 1))) < 2 then return false
    else if !(← verifyContentHash format sha256 dir) then return false
    else
      let capture ← manifest.get "capture" (.obj [])
      let provenance := strip (strOf str (← capture.get "provenance" (.str "")))
      let testCapture ← capture.get "test_capture" .null
      let synthetic ← capture.get "synthetic" .null
      let evidenceRung := strOf str (← capture.get "evidence_rung" (.str ""))
      let captureMethod := strOf str (← capture.get "capture_method" (.str ""))
      return provenance = genuineTxlineProvenance && isFalse testCapture && isFalse synthetic &&
        genuineEvidenceRungs.contains evidenceRung && genuineCaptureMethods.contains captureMethod

end

end Veridex.Ingest
