import Veridex.Ingest.BoundReplay
import Veridex.Ingest.PackFromSession

/-!
# A pack replays the session it was built from

`pack_from_session` splits the stream by fixture, writes JSON lines and hashes them;
`load_pack_marketstates` hashes, reads and folds one fixture. The live fold is over the whole stream.

Results: `packFromSession_ok` (a session that reads has a pack that verifies), `one_projection`.

The files a pack writes have lengths the hash has room for (`Storable`).
-/

namespace Veridex.Ingest

open Veridex.Py Veridex.Lib Veridex.Runtime

variable {format : Json.FloatFormat PyFloat} {sha256 : List UInt8 → String}
  {str : Decoded → String}

/-! ## Names -/

theorem recordsFilename_injective : Function.Injective recordsFilename := by
  intro m n h
  have htext := congrArg String.toList h
  simp only [recordsFilename, String.toList_append, String.toList_ofList] at htext
  exact Json.intText_injective (List.append_cancel_left (List.append_cancel_right htext))

theorem recordsFilename_ne_updates (m n : ℤ) : recordsFilename m ≠ updatesFilename n := by
  intro h
  have htext := congrArg String.toList h
  simp [recordsFilename, updatesFilename, String.toList_append] at htext

theorem recordsFilename_ne_pack (n : ℤ) : recordsFilename n ≠ "pack.json" := by
  intro h
  have htext := congrArg String.toList h
  simp [recordsFilename, String.toList_append] at htext

theorem updatesFilename_injective : Function.Injective updatesFilename := by
  intro m n h
  have htext := congrArg String.toList h
  simp only [updatesFilename, String.toList_append, String.toList_ofList] at htext
  exact Json.intText_injective (List.append_cancel_left (List.append_cancel_right htext))

theorem updatesFilename_ne_pack (n : ℤ) : updatesFilename n ≠ "pack.json" := by
  intro h
  have htext := congrArg String.toList h
  simp [updatesFilename, String.toList_append] at htext

/-! ## Writes -/

@[simp] theorem write_self (dir : PackDir) (file : String × List UInt8) :
    (dir.write file).files file.1 = some file.2 := Function.update_self ..

theorem write_other (dir : PackDir) {file : String × List UInt8} {name : String} (h : name ≠ file.1) :
    (dir.write file).files name = dir.files name := Function.update_of_ne h ..

theorem writeAll_other {name : String} : ∀ {files : List (String × List UInt8)} (dir : PackDir),
    (∀ file ∈ files, file.1 ≠ name) → (dir.writeAll files).files name = dir.files name
  | [], _, _ => rfl
  | file :: files, dir, h => by
    have hrest := writeAll_other (dir.write file) fun f hf => h f (List.mem_cons_of_mem _ hf)
    rw [PackDir.writeAll, List.foldl_cons] at *
    rw [hrest, write_other dir (h file List.mem_cons_self).symm]

/-- A file that is written, always with the same bytes, holds them. -/
theorem writeAll_mem {name : String} {raw : List UInt8} :
    ∀ {files : List (String × List UInt8)} (dir : PackDir), (name, raw) ∈ files →
      (∀ raw', (name, raw') ∈ files → raw' = raw) → (dir.writeAll files).files name = some raw
  | file :: files, dir, hmem, hsame => by
    have hstep : dir.writeAll (file :: files) = (dir.write file).writeAll files := rfl
    rw [hstep]
    by_cases hrest : (name, raw) ∈ files
    · exact writeAll_mem _ hrest fun raw' hraw' => hsame raw' (List.mem_cons_of_mem _ hraw')
    · have hhead := (List.mem_cons.mp hmem).resolve_right hrest
      have hother : ∀ f ∈ files, f.1 ≠ name := by
        rintro ⟨other, raw'⟩ hf rfl
        obtain rfl := hsame raw' (List.mem_cons_of_mem _ hf)
        exact hrest hf
      rw [writeAll_other _ hother, ← hhead]
      exact write_self dir (name, raw)

/-! ## The files of a session -/

/-- The files a pack of the session writes, its manifest apart. -/
def sessionFiles (format : Json.FloatFormat PyFloat) (sessionDir : SessionDir)
    (records : List Unwrapped) : List (String × List UInt8) :=
  (sortedFixtures records).flatMap (fixtureFiles format sessionDir records)

theorem mem_sortedFixtures {records : List Unwrapped} {fid : ℤ} :
    fid ∈ sortedFixtures records ↔ fid ∈ records.map Unwrapped.fid := by
  rw [sortedFixtures, List.mem_insertionSort, List.mem_dedup]

/-- A file of a session is a fixture's records or its backfill. -/
theorem mem_sessionFiles {sessionDir : SessionDir} {records : List Unwrapped}
    {file : String × List UInt8} : file ∈ sessionFiles format sessionDir records ↔
      ∃ fid ∈ records.map Unwrapped.fid,
        file = (recordsFilename fid, recordsFile format records fid) ∨
          ∃ raw, sessionDir.updates fid = some raw ∧ file = (updatesFilename fid, raw) := by
  simp only [sessionFiles, List.mem_flatMap, mem_sortedFixtures, fixtureFiles, List.mem_cons,
    List.mem_map, Option.mem_toList]
  simp only [eq_comm]

theorem sessionFiles_same {sessionDir : SessionDir} {records : List Unwrapped} {name : String}
    {raw raw' : List UInt8} (h : (name, raw) ∈ sessionFiles format sessionDir records)
    (h' : (name, raw') ∈ sessionFiles format sessionDir records) : raw' = raw := by
  obtain ⟨m, -, hm | ⟨_, hupdates, hm⟩⟩ := mem_sessionFiles.mp h <;>
    obtain ⟨n, -, hn | ⟨_, hupdates', hn⟩⟩ := mem_sessionFiles.mp h' <;>
    obtain ⟨rfl, rfl⟩ := Prod.mk.inj hm <;> obtain ⟨hname, rfl⟩ := Prod.mk.inj hn
  · rw [recordsFilename_injective hname]
  · exact absurd hname (recordsFilename_ne_updates m n)
  · exact absurd hname.symm (recordsFilename_ne_updates n m)
  · rw [updatesFilename_injective hname, hupdates'] at hupdates
    exact Option.some.inj hupdates

theorem sessionFiles_ne_pack {sessionDir : SessionDir} {records : List Unwrapped} :
    ∀ file ∈ sessionFiles format sessionDir records, file.1 ≠ "pack.json" := by
  intro file hfile
  obtain ⟨fid, -, rfl | ⟨raw, -, rfl⟩⟩ := mem_sessionFiles.mp hfile
  · exact recordsFilename_ne_pack fid
  · exact updatesFilename_ne_pack fid

/-- The directory the files were written to has them. -/
theorem writeAll_sessionFiles {sessionDir : SessionDir} {records : List Unwrapped} (out : PackDir) :
    ∀ file ∈ sessionFiles format sessionDir records,
      (out.writeAll (sessionFiles format sessionDir records)).files file.1 = some file.2 :=
  fun _ hfile => writeAll_mem out hfile fun _ hraw => sessionFiles_same hfile hraw

theorem entryNames_fixtureEntry (sessionDir : SessionDir) (records : List Unwrapped) (fid : ℤ) :
    entryNames (fixtureEntry sessionDir fid) =
      .ok ((fixtureFiles format sessionDir records fid).map fun file => .str file.1) := by
  rw [fixtureEntry, fixtureFiles]
  cases sessionDir.updates fid with
  | none => rfl
  | some raw => rfl

theorem manifestFilenames_session (sessionDir : SessionDir) (records : List Unwrapped) :
    manifestFilenames (.arr ((sortedFixtures records).map (fixtureEntry sessionDir))) =
      .ok (((sessionFiles format sessionDir records).map Prod.fst).insertionSort (· ≤ ·)) := by
  have hentries : ((sortedFixtures records).map (fixtureEntry sessionDir)).mapM entryNames =
      .ok ((sortedFixtures records).map fun fid =>
        (fixtureFiles format sessionDir records fid).map fun file => .str file.1) := by
    rw [mapM_eq_ok, List.forall₂_map_left_iff, List.forall₂_map_right_iff, List.forall₂_same]
    exact fun fid _ => entryNames_fixtureEntry sessionDir records fid
  have hflat : ((sortedFixtures records).map fun fid =>
      (fixtureFiles format sessionDir records fid).map fun file => (.str file.1 : Decoded)).flatten =
        (sessionFiles format sessionDir records).map fun file => .str file.1 := by
    rw [← List.flatMap_def, sessionFiles, List.map_flatMap]
  have hnames : ((sessionFiles format sessionDir records).map
      fun file => (.str file.1 : Decoded)).mapM nameText =
        .ok ((sessionFiles format sessionDir records).map Prod.fst) := by
    rw [mapM_eq_ok, List.forall₂_map_left_iff, List.forall₂_map_right_iff, List.forall₂_same]
    exact fun _ _ => rfl
  simp only [manifestFilenames, elements, bind, Except.bind, hentries, hflat, hnames]
  rfl

/-! ## Building and verifying -/

/-- The hash has room for a file's lengths. -/
def Storable (file : String × List UInt8) : Prop :=
  (encode file.1.toList).length < 256 ^ 4 ∧ file.2.length < 256 ^ 8

theorem fileBytes_of_storable {file : String × List UInt8} (h : Storable file) :
    fileBytes file = .ok (frameOf file).bytes := by
  simp only [fileBytes, toBytes, if_pos h.1, if_pos h.2]
  rfl

/-- The named files of a directory, sorted. -/
theorem readFiles_of {dir : PackDir} {files : List (String × List UInt8)} {names : List String}
    (hfiles : ∀ file ∈ files, dir.files file.1 = some file.2)
    (hnames : ∀ name ∈ names, name ∈ files.map Prod.fst) :
    ∃ read, (names.mapM fun name => do return (name, ← dir.readBytes name)) = .ok read ∧
      ∀ file ∈ read, file ∈ files := by
  obtain ⟨read, hread⟩ : ∃ read, (names.mapM fun name => do
      return (name, ← dir.readBytes name)) = .ok read := by
    refine exists_mapM_ok fun name hname => ?_
    obtain ⟨file, hfile, rfl⟩ := List.mem_map.mp (hnames name hname)
    exact ⟨(file.1, file.2), bind_eq_ok.mpr ⟨file.2, readBytes_ok.mpr (hfiles file hfile), rfl⟩⟩
  refine ⟨read, hread, fun file hfile => ?_⟩
  obtain ⟨name, hname, hread⟩ := exists_of_mem_mapM hread hfile
  obtain ⟨raw, hraw, hread⟩ := bind_eq_ok.mp hread
  obtain rfl := Except.ok.inj hread
  obtain ⟨other, hother, rfl⟩ := List.mem_map.mp (hnames name hname)
  rw [readBytes_ok, hfiles other hother, Option.some.injEq] at hraw
  rwa [← hraw]

/-- The files of a session are hashed. -/
theorem computeContentHash_session {sessionDir : SessionDir} {records : List Unwrapped}
    (hstore : ∀ file ∈ sessionFiles format sessionDir records, Storable file) {dir : PackDir}
    (hdir : ∀ file ∈ sessionFiles format sessionDir records, dir.files file.1 = some file.2)
    {packVersion : ℤ} {capture : Params} {authority : List UInt8}
    (hauthority : authorityBytes format packVersion (.obj capture) = .ok authority) :
    ∃ h, computeContentHash format sha256 dir
      ((sortedFixtures records).map (fixtureEntry sessionDir)) packVersion capture = .ok h := by
  have hnames : ∀ name ∈ ((sessionFiles format sessionDir records).map Prod.fst).insertionSort (· ≤ ·),
      name ∈ (sessionFiles format sessionDir records).map Prod.fst :=
    fun name hname => (List.mem_insertionSort _).mp hname
  obtain ⟨read, hread, hmem⟩ := readFiles_of hdir hnames
  obtain ⟨parts, hparts⟩ : ∃ parts, read.mapM fileBytes = .ok parts :=
    exists_mapM_ok fun file hfile => ⟨_, fileBytes_of_storable (hstore file (hmem file hfile))⟩
  exact ⟨_, bind_eq_ok.mpr ⟨_, manifestFilenames_session sessionDir records, bind_eq_ok.mpr
    ⟨read, hread, bind_eq_ok.mpr ⟨parts, hparts, bind_eq_ok.mpr ⟨authority, hauthority, rfl⟩⟩⟩⟩⟩

/-- Writing the manifest is no change of the files it names. -/
theorem computeContentHash_write {dir : PackDir} {fixtures : List Decoded} {names : List String}
    (hnames : manifestFilenames (.arr fixtures) = .ok names) (hpack : "pack.json" ∉ names)
    (packVersion : ℤ) (capture : Params) (raw : List UInt8) :
    computeContentHash format sha256 (dir.write ("pack.json", raw)) fixtures packVersion capture =
      computeContentHash format sha256 dir fixtures packVersion capture := by
  have hread : (names.mapM fun name => do
      return (name, ← (dir.write ("pack.json", raw)).readBytes name)) =
        names.mapM fun name => do return (name, ← dir.readBytes name) := by
    refine mapM_congr fun name hname => ?_
    have hne : name ≠ "pack.json" := fun heq => hpack (heq ▸ hname)
    rw [PackDir.readBytes, PackDir.readBytes, write_other dir hne]
  simp only [computeContentHash, hnames, bind, Except.bind] at hread ⊢
  rw [hread]

theorem manifest_write (dir : PackDir) {j : Decoded} (h : j.Distinct) :
    (dir.write ("pack.json", encode (Json.spaced format j))).manifest format = .ok j := by
  have hfile := write_self dir ("pack.json", encode (Json.spaced format j))
  simp only [PackDir.manifest, PackDir.readBytes, bind, Except.bind] at hfile ⊢
  simp only [hfile, decode_encode, jsonLoads, Json.loads_spaced format h]

/-- **A pack that was built verifies.** -/
theorem verify_built {dir : PackDir} {pack : ReplayPack} {names : List String}
    (hnames : manifestFilenames (.arr pack.fixtures) = .ok names) (hpack : "pack.json" ∉ names)
    (hdistinct : pack.toJson.Distinct)
    (hhash : computeContentHash format sha256 dir pack.fixtures pack.packVersion pack.capture =
      .ok pack.contentHash) :
    verifyContentHash format sha256
      (dir.write ("pack.json", encode (Json.spaced format pack.toJson))) = .ok true := by
  rw [← computeContentHash_write hnames hpack _ _ (encode (Json.spaced format pack.toJson))] at hhash
  obtain ⟨names', hnames', hhash⟩ := bind_eq_ok.mp hhash
  obtain ⟨files, hfiles, hhash⟩ := bind_eq_ok.mp hhash
  have hint : intOf (.int pack.packVersion) = .ok pack.packVersion := rfl
  have heq : Decoded.eqv (.str pack.contentHash) (.str pack.contentHash) = true := by
    rw [Decoded.eqv_str, beq_self_eq_true]
  have hmatches : PackDir.hashMatches format sha256
      (dir.write ("pack.json", encode (Json.spaced format pack.toJson))) = .ok true :=
    bind_eq_ok.mpr ⟨_, manifest_write dir hdistinct, bind_eq_ok.mpr ⟨_, rfl, bind_eq_ok.mpr
      ⟨_, hint, bind_eq_ok.mpr ⟨_, rfl, bind_eq_ok.mpr ⟨_, rfl, bind_eq_ok.mpr ⟨names', hnames',
        bind_eq_ok.mpr ⟨files, hfiles, bind_eq_ok.mpr ⟨_, hhash, bind_eq_ok.mpr
          ⟨.str pack.contentHash, rfl, congrArg Except.ok heq⟩⟩⟩⟩⟩⟩⟩⟩⟩
  simp only [verifyContentHash, hmatches]

/-! ## What is read has no key twice -/

theorem distinct_item {v index found : Decoded} (hv : v.Distinct) (h : v.item index = .ok found) :
    found.Distinct := by
  cases v with
  | obj fields =>
    obtain ⟨name, -, hname⟩ := Decoded.item_obj_ok.mp h
    exact Json.distinctFields_iff.mp hv.2 _ (mem_of_lookup hname)
  | arr items =>
    obtain ⟨i, -, h⟩ := bind_eq_ok.mp h
    obtain rfl := Except.ok.inj h
    rw [List.getD_eq_getElem?_getD]
    cases hitem : items[i]? with
    | none => trivial
    | some item => exact Json.distinctItems_iff.mp hv _ (List.mem_of_getElem? hitem)
  | str s =>
    obtain ⟨i, -, h⟩ := bind_eq_ok.mp h
    obtain rfl := Except.ok.inj h
    trivial
  | null | bool | int | float => simp [Decoded.item] at h

theorem readEntries_distinct : ∀ {lines : List (List Char)} {records gaps : List Decoded},
    readEntries format lines = .ok (records, gaps) →
      (∀ record ∈ records, record.Distinct) ∧ ∀ gap ∈ gaps, gap.Distinct
  | [], _, _, h => by
    cases Except.ok.inj h
    exact ⟨List.forall_mem_nil _, List.forall_mem_nil _⟩
  | line :: rest, records, gaps, h => by
    rw [readEntries] at h
    by_cases hline : line.isEmpty = true
    · rw [if_pos hline] at h
      exact readEntries_distinct h
    · rw [if_neg hline] at h
      split at h
      · split_ifs at h
        cases Except.ok.inj h
        exact ⟨List.forall_mem_nil _, List.forall_mem_nil _⟩
      · rename_i entry hentry
        have hdistinct := Json.distinct_of_loads format hentry
        obtain ⟨isGap, -, h⟩ := bind_eq_ok.mp h
        split_ifs at h
        · obtain ⟨gap, hgap, h⟩ := bind_eq_ok.mp h
          obtain ⟨⟨records', gaps'⟩, hrest, h⟩ := bind_eq_ok.mp h
          cases Except.ok.inj h
          obtain ⟨hrecords, hgaps⟩ := readEntries_distinct hrest
          exact ⟨hrecords, List.forall_mem_cons.mpr ⟨distinct_item hdistinct hgap, hgaps⟩⟩
        · obtain ⟨⟨records', gaps'⟩, hrest, h⟩ := bind_eq_ok.mp h
          cases Except.ok.inj h
          obtain ⟨hrecords, hgaps⟩ := readEntries_distinct hrest
          exact ⟨List.forall_mem_cons.mpr ⟨hdistinct, hrecords⟩, hgaps⟩

/-- What unwrapping takes from an envelope. -/
theorem unwrap_ok {envelope : Decoded} {record : Unwrapped} (h : unwrap envelope = .ok record) :
    envelope.item (.str "record") = .ok record.raw ∧
      ∃ fields, record.raw = .obj fields ∧ fixtureIdOf fields = .ok (some record.fid) := by
  obtain ⟨raw, hraw, h⟩ := bind_eq_ok.mp h
  obtain ⟨v, hv, h⟩ := bind_eq_ok.mp h
  obtain ⟨fid, hfid, h⟩ := bind_eq_ok.mp h
  obtain ⟨receivedValue, -, h⟩ := bind_eq_ok.mp h
  obtain ⟨received, -, h⟩ := bind_eq_ok.mp h
  obtain rfl := Except.ok.inj h
  refine ⟨hraw, ?_⟩
  cases raw with
  | obj fields =>
    obtain ⟨name, hname, hv⟩ := Decoded.item_obj_ok.mp hv
    obtain rfl : "FixtureId" = name := Option.some.inj (Except.ok.inj hname)
    exact ⟨fields, rfl, fixtureIdOf_some.mpr ⟨v, hv, hfid⟩⟩
  | arr items => simp [Decoded.item, Decoded.position, bind, Except.bind] at hv
  | str s => simp [Decoded.item, Decoded.position, bind, Except.bind] at hv
  | null | bool | int | float => simp [Decoded.item] at hv

/-- A session's records and gaps have no key twice. -/
theorem readRecords_distinct {sessionDir : SessionDir} {session : Session} {records : List Unwrapped}
    (h : readRecords format sessionDir = .ok (session, records)) :
    (∀ record ∈ records, record.raw.Distinct) ∧ ∀ gap ∈ session.gaps, gap.Distinct := by
  obtain ⟨session', hsession, h⟩ := bind_eq_ok.mp h
  obtain ⟨records', hrecords, h⟩ := bind_eq_ok.mp h
  cases Except.ok.inj h
  unfold readSession at hsession
  obtain ⟨_, -, hsession⟩ := bind_eq_ok.mp hsession
  obtain ⟨_, -, hsession⟩ := bind_eq_ok.mp hsession
  obtain ⟨_, -, hsession⟩ := bind_eq_ok.mp hsession
  obtain ⟨⟨envelopes, gaps⟩, hentries, hsession⟩ := bind_eq_ok.mp hsession
  cases Except.ok.inj hsession
  obtain ⟨henvelopes, hgaps⟩ := readEntries_distinct hentries
  refine ⟨fun record hrecord => ?_, hgaps⟩
  obtain ⟨envelope, henvelope, hunwrap⟩ := exists_of_mem_mapM hrecords hrecord
  exact distinct_item (henvelopes envelope henvelope) (unwrap_ok hunwrap).1

theorem captureOf_distinct {session : Session} (hgaps : ∀ gap ∈ session.gaps, gap.Distinct)
    (records : List Unwrapped) : (.obj (captureOf session records) : Decoded).Distinct := by
  have hendpoints : (.arr (session.sessionMeta.endpoints.map .str) : Decoded).Distinct :=
    Json.distinctItems_iff.mpr (List.forall_mem_map.mpr fun _ _ => trivial)
  exact ⟨by simp [captureOf], trivial, trivial, hendpoints, trivial, Json.distinctItems_iff.mpr hgaps,
    trivial⟩

theorem fixtureEntry_distinct (sessionDir : SessionDir) (fid : ℤ) :
    (fixtureEntry sessionDir fid).Distinct := by
  rw [fixtureEntry]
  cases sessionDir.updates fid with
  | none => exact ⟨by simp, trivial, trivial, trivial⟩
  | some raw => exact ⟨by simp, trivial, trivial, trivial, trivial⟩

theorem toJson_distinct {pack : ReplayPack} (hcapture : (.obj pack.capture : Decoded).Distinct)
    (hfixtures : ∀ entry ∈ pack.fixtures, entry.Distinct) : pack.toJson.Distinct :=
  ⟨by simp, trivial, hcapture, Json.distinctItems_iff.mpr hfixtures, trivial, trivial, trivial⟩

/-! ## The pack of a session -/

/-- What a legacy pack of a session is. -/
def sessionPack (sessionDir : SessionDir) (session : Session) (records : List Unwrapped)
    (contentHash : String) : ReplayPack where
  packVersion := 1
  capture := captureOf session records
  fixtures := (sortedFixtures records).map (fixtureEntry sessionDir)
  contentHash := contentHash

theorem sessionPack_distinct {sessionDir : SessionDir} {session : Session} {records : List Unwrapped}
    (hgaps : ∀ gap ∈ session.gaps, gap.Distinct) (contentHash : String) :
    (sessionPack sessionDir session records contentHash).toJson.Distinct :=
  toJson_distinct (captureOf_distinct hgaps records)
    (List.forall_mem_map.mpr fun fid _ => fixtureEntry_distinct sessionDir fid)

/-- **Where a session reads**, its pack is built. -/
theorem packFromSession_ok {sessionDir : SessionDir} {session : Session} {records : List Unwrapped}
    (hread : readRecords format sessionDir = .ok (session, records))
    (hstore : ∀ file ∈ sessionFiles format sessionDir records, Storable file) (out : PackDir) :
    ∃ contentHash, packFromSession format sha256 sessionDir out none =
        ((out.writeAll (sessionFiles format sessionDir records)).write ("pack.json",
          encode (Json.spaced format (sessionPack sessionDir session records contentHash).toJson)),
        .ok (sessionPack sessionDir session records contentHash)) ∧
      computeContentHash format sha256 (out.writeAll (sessionFiles format sessionDir records))
        ((sortedFixtures records).map (fixtureEntry sessionDir)) 1 (captureOf session records) =
          .ok contentHash := by
  have hauthority : authorityBytes format 1 (.obj (captureOf session records)) = .ok [] := rfl
  obtain ⟨contentHash, hhash⟩ := @computeContentHash_session format sha256 sessionDir records hstore _
    (writeAll_sessionFiles out) _ _ _ hauthority
  refine ⟨contentHash, ?_, hhash⟩
  have hbuild : buildPack format sha256 (out.writeAll (sessionFiles format sessionDir records))
      sessionDir session records none = .ok (sessionPack sessionDir session records contentHash) :=
    bind_eq_ok.mpr ⟨(captureOf session records, 1), rfl, bind_eq_ok.mpr ⟨contentHash, hhash, rfl⟩⟩
  rw [sessionFiles] at hbuild
  simp only [packFromSession, hread, hbuild]
  rfl

/-! ## Reading it back -/

theorem records_readBack {records : List Unwrapped} (hdistinct : ∀ record ∈ records, record.raw.Distinct)
    (fid : ℤ) :
    (fileLines (joinLines ((fixtureRecords records fid).map (Json.spaced format)))).mapM
      (jsonLoads format) = .ok (fixtureRecords records fid) := by
  have hraw : ∀ raw ∈ fixtureRecords records fid, raw.Distinct := by
    intro raw hraw
    obtain ⟨record, hrecord, rfl⟩ := List.mem_map.mp hraw
    exact hdistinct record (List.mem_filter.mp hrecord).1
  rw [fileLines_joinLines, mapM_eq_ok, List.forall₂_map_left_iff, List.forall₂_same]
  · intro raw hmem
    rw [jsonLoads, Json.loads_spaced format (hraw raw hmem)]
  · exact List.forall_mem_map.mpr fun raw _ => isLineBreak_spaced _ raw
  · refine List.forall_mem_map.mpr fun raw _ => ?_
    have hheads := Json.heads_spaced format raw []
    rw [List.append_nil] at hheads
    exact hheads.ne_nil

/-- A fixture's records are its records of the stream. -/
theorem fixtureRecords_eq {records : List Unwrapped} {envelopes : List Decoded}
    (hunwrap : envelopes.mapM unwrap = .ok records) (fid : ℤ) :
    fixtureRecords records fid = (records.map Unwrapped.raw).filter (ofFixture fid) := by
  rw [fixtureRecords, List.filter_map]
  congr 1
  refine List.filter_congr fun record hrecord => ?_
  obtain ⟨envelope, -, hrecord⟩ := exists_of_mem_mapM hunwrap hrecord
  obtain ⟨-, fields, hraw, hfid⟩ := unwrap_ok hrecord
  have hkeyed : keyed record.raw = .ok (some (record.fid, fields)) := by
    rw [hraw, keyed, hfid]
    rfl
  simp only [Function.comp_apply, ofFixture, hkeyed]

/-- The test of a manifest's entry for a fixture. -/
theorem isFixture_entry (sessionDir : SessionDir) (fid fixtureId : ℤ) :
    isFixture fixtureId (fixtureEntry sessionDir fid) = .ok (decide (fid = fixtureId)) := by
  have hitem : (fixtureEntry sessionDir fid).item (.str "fixture_id") = .ok (.int fid) := by
    rw [fixtureEntry]
    cases sessionDir.updates fid <;> rfl
  have heq : Decoded.eqv (.int fid) (.int fixtureId) = decide (fid = fixtureId) := by
    have hnumber : (PyFloat.fin fid = PyFloat.fin fixtureId) ↔ fid = fixtureId := by
      rw [PyFloat.fin.injEq, Int.cast_inj]
    rw [Decoded.eqv]
    · simp only [Decoded.number, PyFloat.eqv, beq_eq_decide, hnumber]
      rfl
    all_goals simp
  rw [isFixture, hitem]
  exact congrArg Except.ok heq

/-- The first entry of a fixture, where there is one. -/
theorem firstEntry_fixture (sessionDir : SessionDir) (fixtureId : ℤ) : ∀ fids : List ℤ,
    firstEntry (isFixture fixtureId) (fids.map (fixtureEntry sessionDir)) =
      .ok (if fixtureId ∈ fids then some (fixtureEntry sessionDir fixtureId) else none)
  | [] => rfl
  | fid :: fids => by
    rw [List.map_cons, firstEntry, isFixture_entry, firstEntry_fixture sessionDir fixtureId fids]
    by_cases hfid : fid = fixtureId
    · subst hfid
      simp [bind, Except.bind, pure, Except.pure]
    · simp [bind, Except.bind, hfid, Ne.symm hfid]

/-- **Loading a fixture** of a session's pack: the fold of its records. -/
theorem loadPackMarketstates_session {sessionDir : SessionDir} {session : Session}
    {records : List Unwrapped} (hread : readRecords format sessionDir = .ok (session, records))
    {out : PackDir} {contentHash : String}
    (hhash : computeContentHash format sha256 (out.writeAll (sessionFiles format sessionDir records))
      ((sortedFixtures records).map (fixtureEntry sessionDir)) 1 (captureOf session records) =
        .ok contentHash) (fixtureId batchSize : ℤ) :
    loadPackMarketstates format sha256 str
      ((out.writeAll (sessionFiles format sessionDir records)).write ("pack.json",
        encode (Json.spaced format (sessionPack sessionDir session records contentHash).toJson)))
      fixtureId batchSize =
        if fixtureId ∈ records.map Unwrapped.fid then
          marketstatesFromRecordStream str batchSize (fixtureRecords records fixtureId)
        else .error fileNotFoundError := by
  obtain ⟨hrecords, hgaps⟩ := readRecords_distinct hread
  have hdistinct : (sessionPack sessionDir session records contentHash).toJson.Distinct :=
    sessionPack_distinct hgaps contentHash
  have hnames : manifestFilenames (.arr (sessionPack sessionDir session records contentHash).fixtures) =
      .ok (((sessionFiles format sessionDir records).map Prod.fst).insertionSort (· ≤ ·)) :=
    manifestFilenames_session sessionDir records
  have hpack : "pack.json" ∉
      ((sessionFiles format sessionDir records).map Prod.fst).insertionSort (· ≤ ·) := by
    intro hmem
    obtain ⟨file, hfile, hname⟩ := List.mem_map.mp ((List.mem_insertionSort _).mp hmem)
    exact sessionFiles_ne_pack file hfile hname
  have hverify := verify_built hnames hpack hdistinct hhash
  have hmanifest : PackDir.manifest format _ = _ :=
    manifest_write (out.writeAll (sessionFiles format sessionDir records)) hdistinct
  generalize hdir : (out.writeAll (sessionFiles format sessionDir records)).write ("pack.json",
    encode (Json.spaced format (sessionPack sessionDir session records contentHash).toJson)) = dir
    at hverify hmanifest
  have hfixtures : (sessionPack sessionDir session records contentHash).toJson.item
      (.str "fixtures") = .ok (.arr ((sortedFixtures records).map (fixtureEntry sessionDir))) := rfl
  have hitems : elements (.arr ((sortedFixtures records).map (fixtureEntry sessionDir))) =
      .ok ((sortedFixtures records).map (fixtureEntry sessionDir)) := rfl
  simp only [loadPackMarketstates, bind, Except.bind, hverify, Bool.not_true, Bool.false_eq_true,
    if_false, hmanifest, hfixtures, hitems, firstEntry_fixture, mem_sortedFixtures]
  by_cases hfixture : fixtureId ∈ records.map Unwrapped.fid
  · have hfile : (recordsFilename fixtureId, recordsFile format records fixtureId) ∈
        sessionFiles format sessionDir records := mem_sessionFiles.mpr ⟨fixtureId, hfixture, .inl rfl⟩
    have hraw : dir.readBytes (recordsFilename fixtureId) =
        .ok (recordsFile format records fixtureId) := by
      rw [readBytes_ok, ← hdir, write_other _ (sessionFiles_ne_pack _ hfile)]
      exact writeAll_sessionFiles out _ hfile
    have hname : (fixtureEntry sessionDir fixtureId).item (.str "records") =
        .ok (.str (recordsFilename fixtureId)) := by
      rw [fixtureEntry]
      cases sessionDir.updates fixtureId <;> rfl
    simp only [if_pos hfixture, PackDir.replay, bind, Except.bind, hname, nameText, hraw, recordsFile,
      decode_encode, records_readBack hrecords]
  · simp only [if_neg hfixture]

/-! ## The result -/

/-- **One projection.** Of the pack of a session, a fixture of the session loads the states the live
fold of the whole session has of it, and no other fixture loads. -/
theorem one_projection {sessionDir : SessionDir} {session : Session} {records : List Unwrapped}
    (hread : readRecords format sessionDir = .ok (session, records)) {states : List MarketState}
    {batchSize : ℤ}
    (hstates : marketstatesFromRecordStream str batchSize (records.map Unwrapped.raw) = .ok states)
    (hstore : ∀ file ∈ sessionFiles format sessionDir records, Storable file) (out : PackDir) :
    ∃ dir pack, packFromSession format sha256 sessionDir out none = (dir, .ok pack) ∧
      ∀ fixtureId, loadPackMarketstates format sha256 str dir fixtureId batchSize =
        if fixtureId ∈ records.map Unwrapped.fid then
          .ok (states.filter fun state => state.fixtureId = fixtureId)
        else .error fileNotFoundError := by
  obtain ⟨contentHash, hpack, hhash⟩ := @packFromSession_ok format sha256 _ _ _ hread hstore out
  refine ⟨_, _, hpack, fun fixtureId => ?_⟩
  have hparts := hread
  obtain ⟨session', -, hparts⟩ := bind_eq_ok.mp hparts
  obtain ⟨records', hunwrap, hparts⟩ := bind_eq_ok.mp hparts
  obtain ⟨-, rfl⟩ := Prod.mk.inj (Except.ok.inj hparts)
  rw [loadPackMarketstates_session hread hhash, fixtureRecords_eq hunwrap,
    marketstates_filter fixtureId hstates]

section Witness

/-- A session of one record. -/
def oddsSessionDir : SessionDir where
  metaJson := some { startedTs := 0, endpoints := ["/odds/stream"], toolVersion := "capture_chain/1" }
  records := some (encode (joinLines [envelopeLine ratioFormat oddsRecord 1]))
  updates _ := none

/-- What it reads as. -/
def oddsSession : Session where
  sessionMeta := { startedTs := 0, endpoints := ["/odds/stream"], toolVersion := "capture_chain/1" }
  records := [envelope oddsRecord 1]
  gaps := []

/-- Its record. -/
def oddsUnwrapped : List Unwrapped := [⟨7, .obj oddsRecord, 1⟩]

theorem oddsSession_read : readRecords ratioFormat oddsSessionDir = .ok (oddsSession, oddsUnwrapped) := by
  have hdistinct : (envelope oddsRecord 1).Distinct :=
    ⟨by decide, trivial, oddsRecord_distinct, trivial⟩
  have hloads : Json.loads ratioFormat (envelopeLine ratioFormat oddsRecord 1) =
      some (envelope oddsRecord 1) := Json.loads_spaced ratioFormat hdistinct
  have hlines : splitlines (joinLines [envelopeLine ratioFormat oddsRecord 1]) =
      [envelopeLine ratioFormat oddsRecord 1] := by
    rw [joinLines_singleton, envelopeLine, splitlines_line (isLineBreak_spaced _ _)]
    rfl
  have hempty : (envelopeLine ratioFormat oddsRecord 1).isEmpty = false := rfl
  have hentries : readEntries ratioFormat [envelopeLine ratioFormat oddsRecord 1] =
      .ok ([envelope oddsRecord 1], []) := by
    rw [readEntries, hempty, if_neg Bool.false_ne_true, hloads]
    rfl
  have hsession : readSession ratioFormat oddsSessionDir = .ok oddsSession := by
    refine bind_eq_ok.mpr ⟨_, rfl, bind_eq_ok.mpr ⟨_, rfl, bind_eq_ok.mpr ⟨_, decode_encode _,
      bind_eq_ok.mpr ⟨([envelope oddsRecord 1], []), ?_, rfl⟩⟩⟩⟩
    rw [hlines, hentries]
  exact bind_eq_ok.mpr ⟨oddsSession, hsession, bind_eq_ok.mpr ⟨oddsUnwrapped, rfl, rfl⟩⟩

theorem length_recordsFilename_seven : (encode (recordsFilename 7).toList).length < 256 ^ 4 := by
  have hname : (recordsFilename 7).toList = "odds_7.jsonl".toList := by
    simp [recordsFilename, Json.intText, Json.decimal, Json.signText, Json.digitsText,
      String.toList_append]
    decide
  rw [hname]
  decide

theorem oddsSession_storable : ∀ file ∈ sessionFiles ratioFormat oddsSessionDir oddsUnwrapped,
    Storable file := by
  intro file hfile
  obtain ⟨fid, hfid, rfl | ⟨raw, hraw, rfl⟩⟩ := mem_sessionFiles.mp hfile
  · obtain rfl := List.mem_singleton.mp hfid
    exact ⟨length_recordsFilename_seven, length_oddsFile⟩
  · exact nomatch hraw

/-- A session of one record replays it. -/
theorem one_projection_single : ∃ dir pack states,
    packFromSession ratioFormat byteText oddsSessionDir ⟨fun _ => none⟩ none = (dir, .ok pack) ∧
      states.length = 1 ∧
        loadPackMarketstates ratioFormat byteText (fun _ => "") dir 7 1 = .ok states := by
  have htape : ∃ states, marketstatesFromRecordStream (fun _ => "") 1
      (oddsUnwrapped.map Unwrapped.raw) = .ok states ∧ states.length = 1 ∧
        (states.filter fun state => state.fixtureId = 7) = states := ⟨_, rfl, rfl, rfl⟩
  obtain ⟨states, hstates, hlength, hfilter⟩ := htape
  obtain ⟨dir, pack, hpack, hload⟩ :=
    one_projection oddsSession_read hstates oddsSession_storable ⟨fun _ => none⟩
  refine ⟨dir, pack, states, hpack, hlength, ?_⟩
  rw [hload 7, if_pos (by decide), hfilter]

/-- A fixture that is not in the session has no states in it, and its load raises. -/
theorem absent_fixture_raises :
    ¬ ∀ (format : Json.FloatFormat PyFloat) (sha256 : List UInt8 → String) (str : Decoded → String)
      (sessionDir : SessionDir) (session : Session) (records : List Unwrapped)
      (states : List MarketState) (out dir : PackDir) (pack : ReplayPack) (fixtureId batchSize : ℤ),
      1 ≤ batchSize → readRecords format sessionDir = .ok (session, records) →
        marketstatesFromRecordStream str batchSize (records.map Unwrapped.raw) = .ok states →
          packFromSession format sha256 sessionDir out none = (dir, .ok pack) →
            loadPackMarketstates format sha256 str dir fixtureId batchSize =
              .ok (states.filter fun state => state.fixtureId = fixtureId) := by
  intro hclaim
  have htape : ∃ states, marketstatesFromRecordStream (fun _ => "") 1
      (oddsUnwrapped.map Unwrapped.raw) = .ok states := ⟨_, rfl⟩
  obtain ⟨states, hstates⟩ := htape
  obtain ⟨contentHash, hpack, hhash⟩ := @packFromSession_ok ratioFormat byteText _ _ _
    oddsSession_read oddsSession_storable ⟨fun _ => none⟩
  have hloaded := hclaim _ _ _ _ _ _ _ _ _ _ 9 1 le_rfl oddsSession_read hstates hpack
  rw [loadPackMarketstates_session oddsSession_read hhash, if_neg (by decide)] at hloaded
  exact nomatch hloaded

end Witness

end Veridex.Ingest
