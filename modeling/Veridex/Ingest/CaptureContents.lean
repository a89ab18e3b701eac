import Veridex.Ingest.CaptureChain
import Veridex.Ingest.OneProjection

/-!
# What a captured pack contains

A pack contains the records of every leg its manifest names (`PackDir.recordsByFixture`). A stream's
records are grouped by their fixture, in the order they arrived (`byFixture`).

Results: `readRecords_lines`, `Built.holds`, `runCaptureChain_cases` (what one call does to the disk).
-/

namespace Veridex.Ingest

open Veridex.Py Veridex.Lib Veridex.Runtime

variable {format : Json.FloatFormat PyFloat} {sha256 : List UInt8 → String}
  {str : Decoded → String}

/-! ## The records of a pack -/

/-- The records of an entry's legs. -/
def entryRecords (format : Json.FloatFormat PyFloat) (dir : PackDir) (entry : Decoded) :
    Except PyExc (ℤ × List Params) := do
  let fid ← intOf (← entry.item (.str "fixture_id"))
  let legs ← (← (← entryNames entry).mapM nameText).mapM fun name => do
    (iterLegRecords format (← dir.readBytes name)).mapM id
  return (fid, legs.flatten)

/-- The records of a pack, by the entries of its manifest. -/
def PackDir.recordsByFixture (format : Json.FloatFormat PyFloat) (dir : PackDir) :
    Except PyExc (List (ℤ × List Params)) := do
  let manifest ← dir.manifest format
  (← elements (← manifest.item (.str "fixtures"))).mapM (entryRecords format dir)

/-- The fixtures of a stream. -/
def streamFixtures (own : List Params) : List ℤ :=
  (own.filterMap fun record =>
    match fixtureIdOf record with
    | .ok fid => fid
    | .error _ => none).dedup.insertionSort (· ≤ ·)

/-- A stream's records by fixture, each fixture's in the order they arrived. -/
def byFixture (own : List Params) : List (ℤ × List Params) :=
  (streamFixtures own).map fun fid => (fid, own.filter fun record => ofFixture fid (.obj record))

/-- A pack contains exactly the records of a stream. -/
structure Holds (format : Json.FloatFormat PyFloat) (dir : PackDir) (own : List Params) : Prop where
  fixtures : ∀ record ∈ own, ∃ fid, fixtureIdOf record = .ok (some fid)
  records : dir.recordsByFixture format = .ok (byFixture own)

/-! ## Legs of dictionaries -/

theorem strip_ne_empty {c : Char} {cs : List Char} (h : isSpace c = false) :
    strip (String.ofList (c :: cs)) ≠ "" := by
  intro hempty
  have hlist := congrArg String.toList hempty
  simp only [strip, String.toList_ofList, List.dropWhile_cons, h, Bool.false_eq_true, if_false] at hlist
  have hall := List.rdropWhile_eq_nil_iff.mp hlist c List.mem_cons_self
  rw [h] at hall
  exact Bool.false_ne_true hall

theorem spaced_obj (fields : Params) : ∃ cs, Json.spaced format (.obj fields) = '{' :: cs := by
  cases fields with
  | nil => exact ⟨_, by rw [Json.spaced]⟩
  | cons field rest => exact ⟨_, by rw [Json.spaced]⟩

theorem splitlines_joinLines {lines : List (List Char)} (hne : lines ≠ [])
    (hbreak : ∀ line ∈ lines, ∀ c ∈ line, isLineBreak c = false) :
    splitlines (joinLines lines) = lines := by
  induction lines with
  | nil => exact absurd rfl hne
  | cons line rest ih =>
    have hline := splitlines_line (hbreak line List.mem_cons_self)
    cases rest with
    | nil =>
      rw [joinLines_singleton, hline]
      rfl
    | cons next rest =>
      rw [joinLines_cons (List.cons_ne_nil next rest), hline, ih (List.cons_ne_nil next rest)
        fun l hl => hbreak l (List.mem_cons_of_mem _ hl)]

theorem joinLines_head (line : List Char) (lines : List (List Char)) :
    ∃ t, joinLines (line :: lines) = line ++ t := by
  cases lines with
  | nil => exact ⟨_, joinLines_singleton line⟩
  | cons next rest => exact ⟨_, joinLines_cons (List.cons_ne_nil next rest)⟩

/-- Two lines or more are no one value. -/
theorem loads_lines {record next : Params} {rest : List Params}
    (hrecord : (.obj record : Decoded).Distinct) :
    Json.loads format (joinLines ((record :: next :: rest).map fun record =>
      Json.spaced format (.obj record))) = none := by
  obtain ⟨t, ht⟩ := joinLines_head (Json.spaced format (.obj next))
    (rest.map fun record => Json.spaced format (.obj record))
  obtain ⟨cs, hcs⟩ := @spaced_obj format next
  have hends : Json.Ends ('\n' :: ('{' :: cs ++ t)) := Json.ends_cons ⟨by decide, by decide⟩ _
  have hnext : Json.next ('\n' :: ('{' :: cs ++ t)) = some ('{', cs ++ t) := rfl
  rw [List.map_cons, List.map_cons, joinLines_cons (List.cons_ne_nil _ _), ht, hcs,
    Json.loads_spaced_append format hrecord hends, hnext]
  rfl

/-- **A records leg** reads back record by record. -/
theorem iterLegRecords_joinLines {records : List Params} (hne : records ≠ [])
    (hdistinct : ∀ record ∈ records, (.obj record : Decoded).Distinct) :
    iterLegRecords format (encode (joinLines (records.map fun record =>
      Json.spaced format (.obj record)))) = records.map .ok := by
  rw [iterLegRecords, decode_encode]
  cases records with
  | nil => exact absurd rfl hne
  | cons record rest =>
    cases rest with
    | nil =>
      have hends : Json.Ends ['\n'] := Json.ends_cons ⟨by decide, by decide⟩ []
      simp only [List.map_cons, List.map_nil, joinLines_singleton,
        Json.loads_spaced_append format (hdistinct record List.mem_cons_self) hends]
      rfl
    | cons next rest =>
      have hlines : splitlines (joinLines ((record :: next :: rest).map fun record =>
          Json.spaced format (.obj record))) = (record :: next :: rest).map fun record =>
            Json.spaced format (.obj record) :=
        splitlines_joinLines (by simp) (List.forall_mem_map.mpr fun _ _ => isLineBreak_spaced _ _)
      have hkeep : ∀ line ∈ (record :: next :: rest).map fun record =>
          Json.spaced format (.obj record), strip (String.ofList line) ≠ "" := by
        refine List.forall_mem_map.mpr fun record _ => ?_
        obtain ⟨cs, hcs⟩ := @spaced_obj format record
        rw [hcs]
        exact strip_ne_empty (by decide)
      simp only [loads_lines (hdistinct record List.mem_cons_self)]
      rw [hlines, List.filter_eq_self.mpr fun line hline => decide_eq_true (hkeep line hline),
        List.filterMap_map, ← List.filterMap_eq_map]
      have hread : ∀ record' ∈ record :: next :: rest,
          Json.loads format (Json.spaced format (.obj record')) = some (.obj record') :=
        fun record' hrecord' => Json.loads_spaced format (hdistinct record' hrecord')
      refine List.filterMap_congr fun record' hrecord' => ?_
      simp only [Function.comp_apply, hread record' hrecord']

/-! ## The lines of a call -/

theorem splitlines_flatMap {α : Type} {line : α → List Char}
    (hbreak : ∀ a, ∀ c ∈ line a, isLineBreak c = false) : ∀ as : List α,
      splitlines (as.flatMap fun a => line a ++ ['\n']) = as.map line
  | [] => rfl
  | a :: as => by
    rw [List.flatMap_cons, List.append_assoc, List.singleton_append, splitlines_line (hbreak a),
      splitlines_flatMap hbreak as, List.map_cons]

theorem envelope_distinct {record : Params} (h : (.obj record : Decoded).Distinct) (receivedTs : ℤ) :
    (envelope record receivedTs).Distinct := ⟨by simp, trivial, h, trivial⟩

theorem readEntries_envelopes : ∀ {records : List (Params × ℤ)},
    (∀ record ∈ records, (.obj record.1 : Decoded).Distinct) →
      readEntries format (records.map fun record => envelopeLine format record.1 record.2) =
        .ok (records.map fun record => envelope record.1 record.2, [])
  | [], _ => rfl
  | record :: rest, h => by
    have hloads : Json.loads format (envelopeLine format record.1 record.2) =
        some (envelope record.1 record.2) :=
      Json.loads_spaced format (envelope_distinct (h record List.mem_cons_self) record.2)
    have hempty : (envelopeLine format record.1 record.2).isEmpty = false := rfl
    have hgap : Decoded.contains (envelope record.1 record.2) (.str "gap") = .ok false := rfl
    have hrest := readEntries_envelopes fun r hr => h r (List.mem_cons_of_mem _ hr)
    rw [List.map_cons, readEntries, hempty, if_neg Bool.false_ne_true, hloads]
    simp only [hgap, hrest, bind, Except.bind]
    rfl

/-- A session of envelopes reads as them. -/
theorem readSession_lines {sessionDir : SessionDir} {sessionMeta : SessionMeta}
    (hmeta : sessionDir.metaJson = some sessionMeta) {records : List (Params × ℤ)}
    (hrecords : sessionDir.records = some (encode (records.flatMap fun record =>
      envelopeLine format record.1 record.2 ++ ['\n'])))
    (hdistinct : ∀ record ∈ records, (.obj record.1 : Decoded).Distinct) :
    readSession format sessionDir =
      .ok ⟨sessionMeta, records.map fun record => envelope record.1 record.2, []⟩ := by
  have hbreak : ∀ record : Params × ℤ, ∀ c ∈ envelopeLine format record.1 record.2,
      isLineBreak c = false := fun _ => isLineBreak_spaced _ _
  have hentries : readEntries format (splitlines (records.flatMap fun record =>
      envelopeLine format record.1 record.2 ++ ['\n'])) =
        .ok (records.map fun record => envelope record.1 record.2, []) := by
    rw [splitlines_flatMap hbreak, readEntries_envelopes hdistinct]
  refine bind_eq_ok.mpr ⟨sessionMeta, ?_, bind_eq_ok.mpr ⟨_, ?_, bind_eq_ok.mpr
    ⟨_, decode_encode _, bind_eq_ok.mpr ⟨_, hentries, rfl⟩⟩⟩⟩
  · rw [hmeta]
    rfl
  · rw [hrecords]
    rfl

/-- **A session of one call's lines** reads as the call's records. -/
theorem readRecords_lines {sessionDir : SessionDir} {records : List (Params × ℤ)}
    (hrecords : sessionDir.records = some (encode (records.flatMap fun record =>
      envelopeLine format record.1 record.2 ++ ['\n'])))
    (hdistinct : ∀ record ∈ records, (.obj record.1 : Decoded).Distinct) {session : Session}
    {unwrapped : List Unwrapped} (h : readRecords format sessionDir = .ok (session, unwrapped)) :
    (records.mapM fun record => unwrap (envelope record.1 record.2)) = .ok unwrapped := by
  obtain ⟨session', hsession, h⟩ := bind_eq_ok.mp h
  obtain ⟨unwrapped', hunwrap, h⟩ := bind_eq_ok.mp h
  obtain ⟨rfl, rfl⟩ := Prod.mk.inj (Except.ok.inj h)
  obtain ⟨sessionMeta, hpresent, -⟩ := bind_eq_ok.mp hsession
  have hmeta : sessionDir.metaJson = some sessionMeta := by
    cases hfile : sessionDir.metaJson with
    | none => simp [present, hfile] at hpresent
    | some found =>
      rw [hfile] at hpresent
      rw [Except.ok.inj hpresent]
  rw [readSession_lines hmeta hrecords hdistinct] at hsession
  rw [← Except.ok.inj hsession] at hunwrap
  rwa [mapM_eq_ok, List.forall₂_map_left_iff, ← mapM_eq_ok] at hunwrap

/-! ## The pack of a call -/

/-- A pack that was built, and the directory it was built in. -/
structure Built (format : Json.FloatFormat PyFloat) (sha256 : List UInt8 → String)
    (sessionDir : SessionDir) (out : PackDir) (authority : PackAuthority) (session : Session)
    (records : List Unwrapped) (dir : PackDir) (pack : ReplayPack) : Prop where
  written : dir = (out.writeAll (sessionFiles format sessionDir records)).write
    ("pack.json", encode (Json.spaced format pack.toJson))
  fixtures : pack.fixtures = (sortedFixtures records).map (fixtureEntry sessionDir)
  packVersion : pack.packVersion = 2
  capture : pack.capture = captureOf session records ++ authority.asCaptureFields
  hash : computeContentHash format sha256 (out.writeAll (sessionFiles format sessionDir records))
    pack.fixtures pack.packVersion pack.capture = .ok pack.contentHash

/-- What building a pack does to its directory: nothing, where the session does not read; else its
files are written, and its manifest where the pack is returned. -/
theorem packFromSession_cases (sessionDir : SessionDir) (out : PackDir) (authority : PackAuthority) :
    (∃ e, packFromSession format sha256 sessionDir out (some authority) = (out, .error e)) ∨
      ∃ session records, readRecords format sessionDir = .ok (session, records) ∧
        ((∃ e, packFromSession format sha256 sessionDir out (some authority) =
            (out.writeAll (sessionFiles format sessionDir records), .error e)) ∨
          ∃ dir pack, packFromSession format sha256 sessionDir out (some authority) = (dir, .ok pack) ∧
            Built format sha256 sessionDir out authority session records dir pack) := by
  cases hread : readRecords format sessionDir with
  | error e =>
    refine .inl ⟨e, ?_⟩
    simp only [packFromSession, hread]
  | ok read =>
    obtain ⟨session, records⟩ := read
    refine .inr ⟨session, records, rfl, ?_⟩
    cases hbuild : buildPack format sha256 (out.writeAll (sessionFiles format sessionDir records))
        sessionDir session records (some authority) with
    | error e =>
      refine .inl ⟨e, ?_⟩
      rw [sessionFiles] at hbuild ⊢
      simp only [packFromSession, hread, hbuild]
    | ok pack =>
      refine .inr ⟨(out.writeAll (sessionFiles format sessionDir records)).write
        ("pack.json", encode (Json.spaced format pack.toJson)), pack, ?_, ?_⟩
      · rw [sessionFiles] at hbuild ⊢
        simp only [packFromSession, hread, hbuild]
      · obtain ⟨⟨capture, packVersion⟩, hcapture, hbuild⟩ := bind_eq_ok.mp hbuild
        obtain ⟨contentHash, hhash, hbuild⟩ := bind_eq_ok.mp hbuild
        obtain ⟨_, -, hcapture⟩ := bind_eq_ok.mp hcapture
        obtain ⟨rfl, rfl⟩ := Prod.mk.inj (Except.ok.inj hcapture)
        obtain rfl := Except.ok.inj hbuild
        exact ⟨rfl, rfl, rfl, rfl, hhash⟩

section Built

variable {sessionDir : SessionDir} {out dir : PackDir} {authority : PackAuthority} {session : Session}
  {records : List Unwrapped} {pack : ReplayPack}

theorem Built.distinct (h : Built format sha256 sessionDir out authority session records dir pack)
    (hgaps : ∀ gap ∈ session.gaps, gap.Distinct) : pack.toJson.Distinct := by
  refine toJson_distinct ?_ ?_
  · have hcapture := captureOf_distinct hgaps records
    have hrung : (optionalText authority.evidenceRung).Distinct := by
      cases authority.evidenceRung <;> trivial
    have hfields : ∀ field ∈ authority.asCaptureFields, Json.Distinct field.2 := by
      simp only [PackAuthority.asCaptureFields, List.forall_mem_cons]
      exact ⟨trivial, trivial, trivial, hrung, trivial, List.forall_mem_nil _⟩
    rw [h.capture]
    refine ⟨by simp [captureOf, PackAuthority.asCaptureFields], Json.distinctFields_iff.mpr ?_⟩
    intro field hfield
    rcases List.mem_append.mp hfield with hfield | hfield
    · exact Json.distinctFields_iff.mp hcapture.2 field hfield
    · exact hfields field hfield
  · rw [h.fixtures]
    exact List.forall_mem_map.mpr fun fid _ => fixtureEntry_distinct sessionDir fid

/-- The names a pack's manifest lists. -/
theorem Built.names (h : Built format sha256 sessionDir out authority session records dir pack) :
    manifestFilenames (.arr pack.fixtures) =
      .ok (((sessionFiles format sessionDir records).map Prod.fst).insertionSort (· ≤ ·)) := by
  rw [h.fixtures, manifestFilenames_session]

theorem sessionFiles_no_pack (sessionDir : SessionDir) (records : List Unwrapped) : "pack.json" ∉
    ((sessionFiles format sessionDir records).map Prod.fst).insertionSort (· ≤ ·) := by
  intro hmem
  obtain ⟨file, hfile, hname⟩ := List.mem_map.mp ((List.mem_insertionSort _).mp hmem)
  exact sessionFiles_ne_pack file hfile hname

theorem Built.manifest (h : Built format sha256 sessionDir out authority session records dir pack)
    (hgaps : ∀ gap ∈ session.gaps, gap.Distinct) : dir.manifest format = .ok pack.toJson := by
  rw [h.written]
  exact manifest_write _ (h.distinct hgaps)

/-- What is read of a pack that was built hashes to the pack's hash. -/
theorem Built.snapshot (h : Built format sha256 sessionDir out authority session records dir pack)
    (hgaps : ∀ gap ∈ session.gaps, gap.Distinct) :
    ∃ snap : Snapshot, snap.Of format dir ∧ snap.manifest = pack.toJson ∧
      snap.contentHash format sha256 = .ok pack.contentHash := by
  have hhash := h.hash
  rw [← computeContentHash_write h.names (sessionFiles_no_pack sessionDir records) _ _
    (encode (Json.spaced format pack.toJson)), ← h.written] at hhash
  obtain ⟨names, hnames, hrest⟩ := bind_eq_ok.mp hhash
  obtain ⟨files, hfiles, hcontent⟩ := bind_eq_ok.mp hrest
  obtain ⟨rfl, hread⟩ := readFiles_ok.mp hfiles
  have hint : intOf (.int pack.packVersion) = .ok pack.packVersion := rfl
  exact ⟨⟨pack.toJson, .arr pack.fixtures, files⟩, ⟨h.manifest hgaps, rfl, hnames, hread⟩, rfl,
    bind_eq_ok.mpr ⟨.int pack.packVersion, rfl, bind_eq_ok.mpr ⟨pack.packVersion, hint,
      bind_eq_ok.mpr ⟨.obj pack.capture, rfl, hcontent⟩⟩⟩⟩

/-- A fixture's records file is in the directory. -/
theorem Built.file (h : Built format sha256 sessionDir out authority session records dir pack)
    {fid : ℤ} (hfid : fid ∈ sortedFixtures records) :
    dir.readBytes (recordsFilename fid) = .ok (recordsFile format records fid) := by
  have hfile : (recordsFilename fid, recordsFile format records fid) ∈
      sessionFiles format sessionDir records :=
    mem_sessionFiles.mpr ⟨fid, mem_sortedFixtures.mp hfid, .inl rfl⟩
  rw [readBytes_ok, h.written, write_other _ (sessionFiles_ne_pack _ hfile)]
  exact writeAll_sessionFiles out _ hfile

end Built

/-- The records of a stream, out of their envelopes. -/
theorem unwrap_stream {stream : List (Params × ℤ)} {records : List Unwrapped}
    (hunwrap : (stream.mapM fun record => unwrap (envelope record.1 record.2)) = .ok records) :
    List.Forall₂ (fun record unwrapped => unwrapped.raw = .obj record.1 ∧
      fixtureIdOf record.1 = .ok (some unwrapped.fid)) stream records := by
  refine (mapM_eq_ok.mp hunwrap).imp ?_
  intro record unwrapped h
  obtain ⟨hitem, fields, hraw, hfid⟩ := unwrap_ok h
  obtain ⟨name, hname, hlookup⟩ := Decoded.item_obj_ok.mp hitem
  obtain rfl : "record" = name := Option.some.inj (Except.ok.inj hname)
  have hrecord : unwrapped.raw = .obj record.1 := (Option.some.inj hlookup).symm
  rw [hrecord, Json.obj.injEq] at hraw
  exact ⟨hrecord, hraw ▸ hfid⟩

theorem raws_of_stream {stream : List (Params × ℤ)} {records : List Unwrapped}
    (h : List.Forall₂ (fun record unwrapped => unwrapped.raw = .obj record.1 ∧
      fixtureIdOf record.1 = .ok (some unwrapped.fid)) stream records) :
    records.map Unwrapped.raw = (stream.map Prod.fst).map .obj ∧
      streamFixtures (stream.map Prod.fst) = sortedFixtures records := by
  constructor
  · induction h with
    | nil => rfl
    | cons hrecord _ ih => rw [List.map_cons, List.map_cons, List.map_cons, ih, hrecord.1]
  · have hids : (stream.map Prod.fst).filterMap (fun record =>
        match fixtureIdOf record with
        | .ok fid => fid
        | .error _ => none) = records.map Unwrapped.fid := by
      induction h with
      | nil => rfl
      | cons hrecord _ ih =>
        rw [List.map_cons, List.map_cons, List.filterMap_cons, ih]
        simp only [hrecord.2]
    rw [streamFixtures, hids, sortedFixtures]

/-- **The pack of one call's records** contains exactly them. -/
theorem Built.holds {sessionDir : SessionDir} {out dir : PackDir} {authority : PackAuthority}
    {session : Session} {records : List Unwrapped} {pack : ReplayPack}
    (h : Built format sha256 sessionDir out authority session records dir pack)
    (hgaps : ∀ gap ∈ session.gaps, gap.Distinct) (hupdates : ∀ fid, sessionDir.updates fid = none)
    {stream : List (Params × ℤ)}
    (hdistinct : ∀ record ∈ stream, (.obj record.1 : Decoded).Distinct)
    (hunwrap : (stream.mapM fun record => unwrap (envelope record.1 record.2)) = .ok records) :
    Holds format dir (stream.map Prod.fst) := by
  have hstream := unwrap_stream hunwrap
  obtain ⟨hraws, hfixtures⟩ := raws_of_stream hstream
  refine ⟨?_, ?_⟩
  · refine List.forall_mem_map.mpr fun record hrecord => ?_
    obtain ⟨unwrapped, -, -, hfid⟩ := exists_related_of_mem hstream hrecord
    exact ⟨unwrapped.fid, hfid⟩
  · refine bind_eq_ok.mpr ⟨_, h.manifest hgaps, bind_eq_ok.mpr ⟨_, rfl, bind_eq_ok.mpr ⟨_, rfl, ?_⟩⟩⟩
    rw [h.fixtures, byFixture, hfixtures, mapM_eq_ok, List.forall₂_map_left_iff,
      List.forall₂_map_right_iff, List.forall₂_same]
    intro fid hfid
    have hown : fixtureRecords records fid = ((stream.map Prod.fst).filter fun record =>
        ofFixture fid (.obj record)).map .obj := by
      have henvelopes : (stream.map fun record => envelope record.1 record.2).mapM unwrap =
          .ok records := by
        rwa [mapM_eq_ok, List.forall₂_map_left_iff, ← mapM_eq_ok]
      rw [fixtureRecords_eq henvelopes, hraws, List.filter_map]
      rfl
    have hentry : (fixtureEntry sessionDir fid).item (.str "fixture_id") = .ok (.int fid) := by
      rw [fixtureEntry, hupdates]
      rfl
    have hnames : entryNames (fixtureEntry sessionDir fid) = .ok [.str (recordsFilename fid)] := by
      rw [fixtureEntry, hupdates]
      rfl
    have hne : ((stream.map Prod.fst).filter fun record => ofFixture fid (.obj record)) ≠ [] := by
      obtain ⟨record, hrecord, rfl⟩ := List.mem_map.mp (mem_sortedFixtures.mp hfid)
      have hmem : record.raw ∈ fixtureRecords records record.fid :=
        List.mem_map_of_mem (List.mem_filter.mpr ⟨hrecord, by simp⟩)
      rw [hown] at hmem
      exact fun hnil => by simp [hnil] at hmem
    have hleg : iterLegRecords format (recordsFile format records fid) =
        ((stream.map Prod.fst).filter fun record => ofFixture fid (.obj record)).map .ok := by
      rw [recordsFile, hown, List.map_map]
      refine iterLegRecords_joinLines hne fun record hrecord => ?_
      obtain ⟨entry, hentry, rfl⟩ := List.mem_map.mp (List.mem_filter.mp hrecord).1
      exact hdistinct entry hentry
    have hread : (iterLegRecords format (recordsFile format records fid)).mapM id =
        .ok ((stream.map Prod.fst).filter fun record => ofFixture fid (.obj record)) := by
      rw [hleg, mapM_eq_ok, List.forall₂_map_left_iff, List.forall₂_same]
      exact fun _ _ => rfl
    refine bind_eq_ok.mpr ⟨_, hentry, bind_eq_ok.mpr ⟨fid, rfl, bind_eq_ok.mpr ⟨_, hnames,
      bind_eq_ok.mpr ⟨[recordsFilename fid], rfl, bind_eq_ok.mpr
        ⟨[(stream.map Prod.fst).filter fun record => ofFixture fid (.obj record)], ?_, ?_⟩⟩⟩⟩⟩
    · exact mapM_eq_ok.mpr (.cons (bind_eq_ok.mpr ⟨_, h.file hfid, hread⟩) .nil)
    · rw [List.flatten_singleton]
      rfl

/-! ## What a call does -/

section Call

variable {σ δ : Type} [DecidableEq σ] [DecidableEq δ]

/-- What a call leaves of the backfills. -/
def Disk.SameUpdates (disk disk' : Disk σ δ) : Prop :=
  ∀ dir, (disk'.sessions dir).updates = (disk.sessions dir).updates

omit [DecidableEq δ] in
theorem writeMeta_updates (disk : Disk σ δ) (dir : σ) (sessionMeta : SessionMeta) :
    disk.SameUpdates (disk.writeMeta dir sessionMeta) := by
  intro other
  by_cases h : other = dir
  · subst h
    simp [Disk.writeMeta]
  · simp [Disk.writeMeta, Function.update_of_ne h]

omit [DecidableEq δ] in
theorem append_updates (disk : Disk σ δ) (dir : σ) (text : List Char) :
    disk.SameUpdates (disk.append dir text) := by
  intro other
  by_cases h : other = dir
  · subst h
    simp [Disk.append]
  · simp [Disk.append, Function.update_of_ne h]

/-- A call that builds no pack. -/
structure NoPack (disk disk' : Disk σ δ) (outcome : Except PyExc (CaptureResult δ)) : Prop where
  packs : disk'.packs = disk.packs
  updates : disk.SameUpdates disk'
  result : ∀ result, outcome = .ok result → result.pack = none

/-- A call that builds a pack of its session, with its own lines appended. -/
structure PackBuilt (format : Json.FloatFormat PyFloat) (sha256 : List UInt8 → String)
    (disk : Disk σ δ) (call : Capture σ δ) (sessionDir : SessionDir) (disk' : Disk σ δ)
    (outcome : Except PyExc (CaptureResult δ)) : Prop where
  heard : call.own format ≠ []
  records : sessionDir.records =
    some ((disk.sessions call.sessionDir).records.getD [] ++ encode (call.lines format))
  sessionUpdates : sessionDir.updates = (disk.sessions call.sessionDir).updates
  packs : disk'.packs = Function.update disk.packs call.outDir
    (packFromSession format sha256 sessionDir (disk.packs call.outDir)
      (some (authorityForSource call.live))).1
  updates : disk.SameUpdates disk'
  result : ∀ result, outcome = .ok result → ∃ pack,
    (packFromSession format sha256 sessionDir (disk.packs call.outDir)
      (some (authorityForSource call.live))).2 = .ok pack ∧ result.pack = some pack

theorem mint_cases (disk : Disk σ δ) (call : Capture σ δ) (heard : Heard) :
    NoPack disk (disk.mint format sha256 str call heard).1 (disk.mint format sha256 str call heard).2 ∨
      (heard.records ≠ [] ∧ ∃ sessionDir : SessionDir,
        sessionDir.records = (disk.sessions call.sessionDir).records ∧
        sessionDir.updates = (disk.sessions call.sessionDir).updates ∧
        (disk.mint format sha256 str call heard).1.packs = Function.update disk.packs call.outDir
          (packFromSession format sha256 sessionDir (disk.packs call.outDir)
            (some (authorityForSource call.live))).1 ∧
        disk.SameUpdates (disk.mint format sha256 str call heard).1 ∧
        ∀ result, (disk.mint format sha256 str call heard).2 = .ok result → ∃ pack,
          (packFromSession format sha256 sessionDir (disk.packs call.outDir)
            (some (authorityForSource call.live))).2 = .ok pack ∧ result.pack = some pack) := by
  unfold Disk.mint
  cases hmeta : finalizeMeta call.startMeta heard.lastFrameTs
      (recordCounts str (heard.records.map Prod.fst)) with
  | error e => exact .inl ⟨rfl, fun _ => rfl, nofun⟩
  | ok sessionMeta =>
    have hupdates := writeMeta_updates disk call.sessionDir sessionMeta
    simp only
    by_cases hempty : heard.records.isEmpty = true
    · rw [if_pos hempty]
      refine .inl ⟨rfl, hupdates, ?_⟩
      rintro result ⟨⟩
      rfl
    · rw [if_neg hempty]
      refine .inr ⟨fun hnil => hempty (by simp [hnil]), _, ?_, hupdates call.sessionDir, rfl, hupdates, ?_⟩
      · simp [Disk.writeMeta]
      · intro result hresult
        obtain ⟨pack, hpack, hresult⟩ := bind_eq_ok.mp hresult
        obtain rfl := Except.ok.inj hresult
        exact ⟨pack, hpack, rfl⟩

/-- **What a call does**: it builds no pack, or the pack of its session with its own lines. -/
theorem runCaptureChain_cases (disk : Disk σ δ) (call : Capture σ δ) :
    NoPack disk (disk.runCaptureChain format sha256 str call).1
        (disk.runCaptureChain format sha256 str call).2 ∨
      ∃ sessionDir, PackBuilt format sha256 disk call sessionDir
        (disk.runCaptureChain format sha256 str call).1
          (disk.runCaptureChain format sha256 str call).2 := by
  unfold Disk.runCaptureChain
  cases call.credentials with
  | error e => exact .inl ⟨rfl, fun _ => rfl, nofun⟩
  | ok _ =>
    have hmeta := writeMeta_updates disk call.sessionDir call.startMeta
    have happend : ∀ text, disk.SameUpdates
        ((disk.writeMeta call.sessionDir call.startMeta).append call.sessionDir text) :=
      fun text dir => (append_updates _ call.sessionDir text dir).trans (hmeta dir)
    cases call.client with
    | error e => exact .inl ⟨rfl, hmeta, nofun⟩
    | ok _ =>
      cases call.connected with
      | error e =>
        refine .inl ⟨rfl, happend [], ?_⟩
        intro result hresult
        obtain ⟨_, -, hresult⟩ := bind_eq_ok.mp hresult
        exact nomatch hresult
      | ok _ =>
        simp only
        cases call.closed with
        | error e => exact .inl ⟨by cases (call.heard format).2 <;> rfl,
            by cases (call.heard format).2 <;> exact happend _,
            by cases (call.heard format).2 <;> exact nofun⟩
        | ok _ =>
          cases hended : (call.heard format).2 with
          | error e => exact .inl ⟨rfl, happend _, nofun⟩
          | ok _ =>
            simp only
            rcases @mint_cases format sha256 str _ _ _ _
              ((disk.writeMeta call.sessionDir call.startMeta).append call.sessionDir
                (call.lines format)) call (call.heard format).1 with
              hnone | ⟨hheard, sessionDir, hrecords, hsession, hpacks, hupdates, hresult⟩
            · exact .inl ⟨hnone.packs, fun dir => (hnone.updates dir).trans (happend _ dir),
                hnone.result⟩
            · refine .inr ⟨sessionDir, ?_, ?_, ?_, hpacks, fun dir =>
                (hupdates dir).trans (happend _ dir), hresult⟩
              · simpa [Capture.own] using hheard
              · rw [hrecords]
                simp [Disk.append, Disk.writeMeta]
              · rw [hsession]
                exact happend _ call.sessionDir

end Call

end Veridex.Ingest
