import Veridex.Ingest.ReplayPack

/-!
# Recorder sessions (`ingest/recorder.py`)

A session is `meta.json`, `records.jsonl` (one JSON object a line) and the backfills
`updates_<fid>.json`. The metadata is kept as the model its text is; a text that is none, like a
missing file, fails the read.

`readSession` drops a last line that does not parse, and raises at any other.
-/

namespace Veridex.Ingest

open Veridex.Py Veridex.Lib Veridex.Runtime

/-- `SessionMeta`. -/
structure SessionMeta where
  startedTs : ℤ
  endpoints : List String
  toolVersion : String
  endedTs : Option ℤ := none
  fixtureIds : List ℤ := []
  recordCounts : List (String × ℕ) := []

/-- A session's directory. -/
structure SessionDir where
  metaJson : Option SessionMeta
  records : Option (List UInt8)
  updates : ℤ → Option (List UInt8)

/-- `finalize_meta`. -/
def finalizeMeta (startMeta : SessionMeta) (endedTs : ℤ) (recordCounts : List (String × ℕ)) :
    Except PyExc SessionMeta := do
  let fixtureIds ← recordCounts.mapM fun count => intOf (.str count.1)
  return { startMeta with
    endedTs := some endedTs
    fixtureIds := fixtureIds.insertionSort (· ≤ ·)
    recordCounts := recordCounts }

/-- The envelope of a record. -/
def envelope (record : Params) (receivedTs : ℤ) : Decoded :=
  .obj [("received_ts", .int receivedTs), ("record", .obj record)]

/-- What a session holds. -/
structure Session where
  sessionMeta : SessionMeta
  records : List Decoded
  gaps : List Decoded

/-- What a file holds, where there is one. -/
def present {α : Type} : Option α → Except PyExc α
  | some a => .ok a
  | none => .error fileNotFoundError

variable (format : Json.FloatFormat PyFloat)

/-- `envelope_line`. -/
def envelopeLine (record : Params) (receivedTs : ℤ) : List Char :=
  Json.spaced format (envelope record receivedTs)

/-- The records and the gaps of some lines. -/
def readEntries : List (List Char) → Except PyExc (List Decoded × List Decoded)
  | [] => .ok ([], [])
  | line :: rest =>
    if line.isEmpty then readEntries rest
    else match Json.loads format line with
      | none => if rest.isEmpty then .ok ([], []) else .error jsonDecodeError
      | some entry => do
        if ← Decoded.contains entry (.str "gap") then
          let gap ← Decoded.item entry (.str "gap")
          let (records, gaps) ← readEntries rest
          return (records, gap :: gaps)
        else
          let (records, gaps) ← readEntries rest
          return (entry :: records, gaps)

/-- `read_session`. -/
def readSession (session : SessionDir) : Except PyExc Session := do
  let sessionMeta ← present session.metaJson
  let raw ← present session.records
  let (records, gaps) ← readEntries format (splitlines (← decode raw))
  return ⟨sessionMeta, records, gaps⟩

end Veridex.Ingest

/-!
## Building a pack (`pack_from_session`)

The records of a session are split by fixture, each fixture's into a file of its own, and the
manifest is written last. The build is a directory transform: `packFromSession` is what it leaves of
the directory, and what it returns or raises.

* A `PackAuthority` carries the seal of its module or does not (`sealToken`). Only objects of that
  type are modelled; another is refused where the seal is checked.
* `pack.json` is taken as the text `json.dumps` writes of the model. Where a gap holds a nan the real
  text has null; nothing reads the gaps back.
-/

namespace Veridex.Ingest

open Veridex.Py Veridex.Lib Veridex.Runtime

/-! ### Authority -/

/-- `PackAuthority`. -/
structure PackAuthority where
  provenance : String
  testCapture : Bool
  synthetic : Bool
  evidenceRung : Option String
  captureMethod : String
  sealToken : Bool := false

def genuineTxlineProvenance : String := "genuine-txline"

def testFakeProvenance : String := "test-fake-recording"

/-- `_GENUINE_EVIDENCE_RUNGS`. -/
def genuineEvidenceRungs : List String := ["recorded-live-quote", "backfilled-price-history"]

/-- `_GENUINE_CAPTURE_METHODS`. -/
def genuineCaptureMethods : List String := ["live-sse-stream", "odds-updates-backfill"]

/-- `_claims_genuine`. -/
def PackAuthority.claimsGenuine (authority : PackAuthority) : Bool :=
  authority.provenance = genuineTxlineProvenance ||
    genuineEvidenceRungs.contains (authority.evidenceRung.getD "None") ||
      genuineCaptureMethods.contains authority.captureMethod

/-- `as_capture_fields`. -/
def PackAuthority.asCaptureFields (authority : PackAuthority) : Params :=
  [("provenance", .str authority.provenance), ("test_capture", .bool authority.testCapture),
    ("synthetic", .bool authority.synthetic), ("evidence_rung", optionalText authority.evidenceRung),
    ("capture_method", .str authority.captureMethod)]

/-- `_assert_authority_mintable`. -/
def assertAuthorityMintable (authority : PackAuthority) : Except PyExc Unit :=
  if authority.claimsGenuine && !authority.sealToken then .error ⟨.exception, "PermissionError"⟩
  else .ok ()

/-! ### Records by fixture -/

/-- A record out of its envelope. -/
structure Unwrapped where
  fid : ℤ
  raw : Decoded
  receivedTs : ℤ

/-- The fixture of an envelope's record, which must have one. -/
def unwrap (envelope : Decoded) : Except PyExc Unwrapped := do
  let raw ← envelope.item (.str "record")
  let fid ← intOf (← raw.item (.str "FixtureId"))
  return ⟨fid, raw, ← intOf (← envelope.item (.str "received_ts"))⟩

/-- `by_fixture[fid]`. -/
def fixtureRecords (records : List Unwrapped) (fid : ℤ) : List Decoded :=
  (records.filter fun record => record.fid = fid).map Unwrapped.raw

/-- `sorted(by_fixture)`. -/
def sortedFixtures (records : List Unwrapped) : List ℤ :=
  (records.map Unwrapped.fid).dedup.insertionSort (· ≤ ·)

/-- `f"odds_{fid}.jsonl"`. -/
def recordsFilename (fid : ℤ) : String := "odds_" ++ String.ofList (Json.intText fid) ++ ".jsonl"

/-- `f"updates_{fid}.json"`. -/
def updatesFilename (fid : ℤ) : String := "updates_" ++ String.ofList (Json.intText fid) ++ ".json"

/-! ### Files -/

/-- `(out_dir / name).write_bytes(raw)`. -/
def PackDir.write (dir : PackDir) (file : String × List UInt8) : PackDir where
  files := Function.update dir.files file.1 (some file.2)

/-- Writing files one after the other. -/
def PackDir.writeAll (dir : PackDir) (files : List (String × List UInt8)) : PackDir :=
  files.foldl PackDir.write dir

/-- `ReplayPack`. -/
structure ReplayPack where
  packVersion : ℤ
  capture : Params
  fixtures : List Decoded
  closingPolicy : String := "con-040_last_pre_inrunning"
  contentHash : String

/-- `model_dump`. -/
def ReplayPack.toJson (pack : ReplayPack) : Decoded :=
  .obj [("pack_version", .int pack.packVersion), ("capture", .obj pack.capture),
    ("fixtures", .arr pack.fixtures), ("closing_policy", .str pack.closingPolicy),
    ("content_hash", .str pack.contentHash)]

section

variable (format : Json.FloatFormat PyFloat)

/-- What a fixture's records file holds. -/
def recordsFile (records : List Unwrapped) (fid : ℤ) : List UInt8 :=
  encode (joinLines ((fixtureRecords records fid).map (Json.spaced format)))

/-- The files of one fixture. -/
def fixtureFiles (session : SessionDir) (records : List Unwrapped) (fid : ℤ) :
    List (String × List UInt8) :=
  (recordsFilename fid, recordsFile format records fid) ::
    (session.updates fid).toList.map fun raw => (updatesFilename fid, raw)

/-- The manifest's entry of one fixture. -/
def fixtureEntry (session : SessionDir) (fid : ℤ) : Decoded :=
  .obj ([("fixture_id", .int fid), ("records", .str (recordsFilename fid))] ++
    (session.updates fid).toList.map fun _ => ("odds_updates", .str (updatesFilename fid)))

/-- `capture`, before any authority. -/
def captureOf (session : Session) (records : List Unwrapped) : Params :=
  [("started_ts", .int session.sessionMeta.startedTs),
    ("ended_ts", .int ((records.map Unwrapped.receivedTs).foldl max session.sessionMeta.startedTs)),
    ("endpoints", .arr (session.sessionMeta.endpoints.map .str)),
    ("tool", .str session.sessionMeta.toolVersion), ("gaps", .arr session.gaps)]

/-- The capture block and the version an authority makes of a pack. -/
def captureWith (capture : Params) : Option PackAuthority → Except PyExc (Params × ℤ)
  | none => .ok (capture, 1)
  | some authority => do
    assertAuthorityMintable authority
    return (capture ++ authority.asCaptureFields, 2)

variable (sha256 : List UInt8 → String)

/-- `_compute_content_hash`. -/
def computeContentHash (dir : PackDir) (fixtures : List Decoded) (packVersion : ℤ) (capture : Params) :
    Except PyExc String := do
  let files ← (← manifestFilenames (.arr fixtures)).mapM fun name => do
    return (name, ← dir.readBytes name)
  contentHash format sha256 files packVersion (.obj capture)

/-- The pack of some records whose files are written. -/
def buildPack (written : PackDir) (sessionDir : SessionDir) (session : Session)
    (records : List Unwrapped) (authority : Option PackAuthority) : Except PyExc ReplayPack := do
  let fixtures := (sortedFixtures records).map (fixtureEntry sessionDir)
  let (capture, packVersion) ← captureWith (captureOf session records) authority
  return {
    packVersion := packVersion
    capture := capture
    fixtures := fixtures
    contentHash := ← computeContentHash format sha256 written fixtures packVersion capture }

/-- A session, and its records out of their envelopes. -/
def readRecords (sessionDir : SessionDir) : Except PyExc (Session × List Unwrapped) := do
  let session ← readSession format sessionDir
  return (session, ← session.records.mapM unwrap)

/-- `pack_from_session`: the directory it leaves, and the pack or what it raises. -/
def packFromSession (sessionDir : SessionDir) (out : PackDir) (authority : Option PackAuthority) :
    PackDir × Except PyExc ReplayPack :=
  match readRecords format sessionDir with
  | .error e => (out, .error e)
  | .ok (session, records) =>
    let written := out.writeAll ((sortedFixtures records).flatMap
      (fixtureFiles format sessionDir records))
    match buildPack format sha256 written sessionDir session records authority with
    | .error e => (written, .error e)
    | .ok pack =>
      (written.write ("pack.json", encode (Json.spaced format pack.toJson)), .ok pack)

end

end Veridex.Ingest
