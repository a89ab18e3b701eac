import Veridex.Ingest.RecordStream
import Veridex.Lib.Frames
import Veridex.Py.TextFile

/-!
# Replay packs (`ingest/replay_pack.py`)

A pack is a directory: files by name, `pack.json` among them. Its hash covers the files the manifest
names, in the order of their names, and from version 2 on the authority fields of its capture block.

* A name is read as it stands: two spellings of one path are two names.
* No system opens a path of 65536 bytes (`PackDir.Stored`).
* `sha256` is a parameter, on bytes, with its hex text as its value. So are the text of a float
  (`format`) and what `str` writes of a value that is no text.
* An exception's class is told apart where a handler here does; a `PackIntegrityError` is a
  `ValueError` whose text is its reason.

`loadPackFixtureStatesBound` reads everything once (`PackDir.snapshot`), then hashes, then binds.
`loadPackMarketstates` hashes first (`verifyContentHash`) and reads again.
-/

namespace Veridex.Ingest

open Veridex.Py Veridex.Lib Veridex.Runtime

/-! ## Directories -/

/-- A directory's files. -/
structure PackDir where
  files : String → Option (List UInt8)

/-- A directory a file system can hold. -/
def PackDir.Stored (dir : PackDir) : Prop :=
  ∀ name raw, dir.files name = some raw → (encode name.toList).length < 65536

def keyError : PyExc := ⟨.exception, "KeyError"⟩

def fileNotFoundError : PyExc := ⟨.exception, "FileNotFoundError"⟩

def jsonDecodeError : PyExc := ⟨.valueError, "JSONDecodeError"⟩

/-- A `PackIntegrityError`. -/
def integrityError (reason : String) : PyExc := ⟨.valueError, reason⟩

/-- `(pack_dir / name).read_bytes()`. -/
def PackDir.readBytes (dir : PackDir) (name : String) : Except PyExc (List UInt8) :=
  match dir.files name with
  | some raw => .ok raw
  | none => .error fileNotFoundError

section Format

variable (format : Json.FloatFormat PyFloat)

/-- `json.loads(text)`. -/
def jsonLoads (text : List Char) : Except PyExc Decoded :=
  match Json.loads format text with
  | some j => .ok j
  | none => .error jsonDecodeError

/-- `json.loads((pack_dir / "pack.json").read_text())`. -/
def PackDir.manifest (dir : PackDir) : Except PyExc Decoded := do
  jsonLoads format (← decode (← dir.readBytes "pack.json"))

/-! ## The manifest -/

/-- What a `for` goes over. -/
def elements : Decoded → Except PyExc (List Decoded)
  | .arr items => .ok items
  | .str s => .ok (s.toList.map fun c => .str (String.singleton c))
  | .obj fields => .ok (fields.map fun field => .str field.1)
  | _ => .error ⟨.typeError, "object is not iterable"⟩

/-- A leg's name, where an entry has the leg. -/
def legName (entry : Decoded) (leg : String) : Except PyExc (List Decoded) := do
  if ← entry.contains (.str leg) then return [← entry.item (.str leg)] else return []

/-- The names of one entry. -/
def entryNames (entry : Decoded) : Except PyExc (List Decoded) := do
  return (← entry.item (.str "records")) :: (← legName entry "odds_updates") ++
    (← legName entry "venue_quotes")

/-- A name that no path can be made of is refused. -/
def nameText : Decoded → Except PyExc String
  | .str name => .ok name
  | _ => .error ⟨.typeError, "unsupported operand type(s) for /"⟩

/-- `_manifest_filenames`. -/
def manifestFilenames (fixtures : Decoded) : Except PyExc (List String) := do
  let names ← (← elements fixtures).mapM entryNames
  return (← names.flatten.mapM nameText).insertionSort (· ≤ ·)

/-! ## The content hash -/

/-- `n.to_bytes(width, "big")`. -/
def toBytes (width n : ℕ) : Except PyExc (List UInt8) :=
  if n < 256 ^ width then .ok (bigEndian width n) else .error ⟨.exception, "OverflowError"⟩

/-- What the hash takes of one file. -/
def fileBytes (file : String × List UInt8) : Except PyExc (List UInt8) := do
  let name := encode file.1.toList
  return (← toBytes 4 name.length) ++ (name ++ ((← toBytes 8 file.2.length) ++ file.2))

/-- `_AUTHORITY_FIELDS`. -/
def authorityFields : List String :=
  ["provenance", "test_capture", "synthetic", "evidence_rung", "capture_method"]

/-- `_AUTHORITY_DOMAIN_SEP`. -/
def authorityDomainSep : List UInt8 := 0 :: encode "replaypack.authority.v2".toList ++ [0]

/-- `_canonical_authority_bytes(capture or {})`. -/
def canonicalAuthorityBytes (capture : Decoded) : Except PyExc (List UInt8) := do
  let capture := if capture.truthy then capture else .obj []
  let fields ← authorityFields.mapM fun field => do return (field, ← capture.get field .null)
  return encode (Json.dumps format (.obj fields))

/-- What the hash takes of the authority. -/
def authorityBytes (packVersion : ℤ) (capture : Decoded) : Except PyExc (List UInt8) :=
  if 2 ≤ packVersion then do
    let authority ← canonicalAuthorityBytes format capture
    return authorityDomainSep ++ ((← toBytes 8 authority.length) ++ authority)
  else .ok []

variable (sha256 : List UInt8 → String)

/-- `_content_hash_from_file_bytes`, of the named files in order. -/
def contentHash (files : List (String × List UInt8)) (packVersion : ℤ) (capture : Decoded) :
    Except PyExc String := do
  return sha256 ((← files.mapM fileBytes).flatten ++ (← authorityBytes format packVersion capture))

/-! ## The legs -/

/-- `_iter_leg_records`: the records, up to the first that raises. -/
def iterLegRecords (raw : List UInt8) : List (Except PyExc Params) :=
  match decode raw with
  | .error e => [.error e]
  | .ok text =>
    match Json.loads format text with
    | some (.arr items) => items.filterMap fun
      | .obj record => some (.ok record)
      | _ => none
    | some (.obj record) => [.ok record]
    | some _ => []
    | none => ((splitlines text).filter fun line => strip (String.ofList line) ≠ "").filterMap
      fun line => match Json.loads format line with
        | some (.obj record) => some (.ok record)
        | some _ => none
        | none => some (.error jsonDecodeError)

/-- A record is of the fixture, or names none. -/
def guardRecord (fixtureId : ℤ) (record : Params) : Except PyExc Unit :=
  match got record "FixtureId" with
  | .null => .ok ()
  | rawFid => do
    if (← intOf rawFid) = fixtureId then return ()
    else .error (integrityError "fixture_mapping_mismatch")

/-- Every record of a leg is guarded. -/
def guardRecords (fixtureId : ℤ) (raw : List UInt8) : Except PyExc Unit :=
  (iterLegRecords format raw).forM fun record => do guardRecord fixtureId (← record)

variable (str : Decoded → String)

/-- The states a records file replays to. -/
def tapeOf (fixtureId batchSize : ℤ) (raw : List UInt8) : Except PyExc (List MarketState) := do
  let records ← (iterLegRecords format raw).mapM id
  let states ← marketstatesFromRecordStream str batchSize (records.map .obj)
  if states.any fun state => state.fixtureId ≠ fixtureId then
    .error (integrityError "fixture_mapping_mismatch")
  else if states.isEmpty then .error (integrityError "empty_fixture")
  else return states

/-! ## Loading a fixture, bound to a hash -/

/-- The manifest, and the named files in order. -/
structure Snapshot where
  manifest : Decoded
  fixtures : Decoded
  files : List (String × List UInt8)

/-- What the loader turns into drift: everything but a text that is no UTF-8. -/
def driftOf (e : PyExc) : PyExc :=
  if e.cls = .valueError ∧ e ≠ jsonDecodeError then e else integrityError "content_hash_drift"

/-- The manifest and every file it names, read once. -/
def PackDir.snapshot (dir : PackDir) : Except PyExc Snapshot :=
  Except.mapError driftOf do
    let manifest ← dir.manifest format
    let fixtures ← manifest.item (.str "fixtures")
    let files ← (← manifestFilenames fixtures).mapM fun name => do
      return (name, ← dir.readBytes name)
    return ⟨manifest, fixtures, files⟩

/-- The hash of what was read. -/
def Snapshot.contentHash (snap : Snapshot) : Except PyExc String := do
  let packVersion ← intOf (← snap.manifest.get "pack_version" (.int 1))
  Ingest.contentHash format sha256 snap.files packVersion (← snap.manifest.get "capture" (.obj []))

/-- `next((f for f in fixtures if test(f)), None)`. -/
def firstEntry (test : Decoded → Except PyExc Bool) : List Decoded → Except PyExc (Option Decoded)
  | [] => .ok none
  | entry :: rest => do if ← test entry then return some entry else firstEntry test rest

/-- The entry of a fixture. -/
def Snapshot.entry (snap : Snapshot) (fixtureId : ℤ) : Except PyExc (Option Decoded) := do
  firstEntry (fun entry => do return (← intOf (← entry.item (.str "fixture_id"))) = fixtureId)
    (← elements snap.fixtures)

/-- `file_bytes[name]`. -/
def Snapshot.file (snap : Snapshot) (name : Decoded) : Except PyExc (List UInt8) := do
  match (← name.key).bind fun name => snap.files.lookup name with
  | some raw => return raw
  | none => .error keyError

/-- The legs whose records are guarded. -/
def guardedLegs : List String := ["records", "odds_updates", "venue_quotes"]

/-- One leg of an entry is guarded, where the entry has it. -/
def Snapshot.guardLeg (snap : Snapshot) (fixtureId : ℤ) (entry : Decoded) (leg : String) :
    Except PyExc Unit := do
  match ← entry.get leg .null with
  | .null => return ()
  | name => guardRecords format fixtureId (← snap.file name)

/-- `load_pack_fixture_states_bound`. -/
def loadPackFixtureStatesBound (dir : PackDir) (fixtureId : ℤ) (expectedContentHash : String)
    (batchSize : ℤ) : Except PyExc (List MarketState) := do
  let snap ← dir.snapshot format
  if (← snap.contentHash format sha256) ≠ expectedContentHash then
    .error (integrityError "content_hash_drift")
  else match ← snap.entry fixtureId with
    | none => .error (integrityError "fixture_gone")
    | some entry => do
      guardedLegs.forM (snap.guardLeg format fixtureId entry)
      tapeOf format str fixtureId batchSize (← snap.file (← entry.item (.str "records")))

/-! ## Loading a fixture -/

/-- What `verify_content_hash` answers `False` to. -/
def refusedByVerify (e : PyExc) : Bool :=
  e.cls = .valueError || e.cls = .typeError || e = keyError || e = fileNotFoundError

/-- The hash of a directory's files is the one its manifest stores. -/
def PackDir.hashMatches (dir : PackDir) : Except PyExc Bool := do
  let manifest ← dir.manifest format
  let packVersion ← intOf (← manifest.get "pack_version" (.int 1))
  let fixtures ← manifest.item (.str "fixtures")
  let capture ← manifest.get "capture" (.obj [])
  let files ← (← manifestFilenames fixtures).mapM fun name => do
    return (name, ← dir.readBytes name)
  let recomputed ← contentHash format sha256 files packVersion capture
  return (← manifest.item (.str "content_hash")).eqv (.str recomputed)

/-- `verify_content_hash`. -/
def verifyContentHash (dir : PackDir) : Except PyExc Bool :=
  match dir.hashMatches format sha256 with
  | .ok verified => .ok verified
  | .error e => if refusedByVerify e then .ok false else .error e

/-- `entry["fixture_id"] == fixture_id`. -/
def isFixture (fixtureId : ℤ) (entry : Decoded) : Except PyExc Bool := do
  return (← entry.item (.str "fixture_id")).eqv (.int fixtureId)

/-- The states an entry's records file replays to. -/
def PackDir.replay (dir : PackDir) (batchSize : ℤ) (entry : Decoded) :
    Except PyExc (List MarketState) := do
  let text ← decode (← dir.readBytes (← nameText (← entry.item (.str "records"))))
  marketstatesFromRecordStream str batchSize (← (fileLines text).mapM (jsonLoads format))

/-- `load_pack_marketstates`. -/
def loadPackMarketstates (dir : PackDir) (fixtureId batchSize : ℤ) :
    Except PyExc (List MarketState) := do
  if !(← verifyContentHash format sha256 dir) then
    .error ⟨.valueError, "failed content_hash verification"⟩
  else
    let manifest ← dir.manifest format
    match ← firstEntry (isFixture fixtureId) (← elements (← manifest.item (.str "fixtures"))) with
    | none => .error fileNotFoundError
    | some entry => dir.replay format str batchSize entry

end Format

end Veridex.Ingest
