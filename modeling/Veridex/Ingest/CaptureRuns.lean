import Veridex.Ingest.CaptureContents

/-!
# Histories of captures

Calls share their directories, and the records of a session stay there for the next call. Authority is
the call's own.

* `Fresh`: a call with the live source finds no record in its session directory.
* `genuine_packs_hold_own_stream`: the packs in a history of such calls; `inherited_record_returned` is
  one of others.
-/

namespace Veridex.Ingest

open Veridex.Py Veridex.Lib Veridex.Runtime

variable {format : Json.FloatFormat PyFloat} {sha256 : List UInt8 → String}
  {str : Decoded → String} {σ δ : Type}

/-! ## The records a call parses -/

theorem parseSseLine_distinct {line : String} {record : Params}
    (h : parseSseLine format line = some record) : (.obj record : Decoded).Distinct := by
  unfold parseSseLine at h
  dsimp only at h
  split_ifs at h
  split at h
  · rename_i found hfound
    obtain rfl := Option.some.inj h
    exact Json.distinct_of_loads format hfound
  · exact nomatch h

theorem hear_distinct {heard : Heard}
    (hheard : ∀ record ∈ heard.records, (.obj record.1 : Decoded).Distinct) (arrival : Arrival) :
    ∀ record ∈ (heard.hear format arrival).records, (.obj record.1 : Decoded).Distinct := by
  unfold Heard.hear
  split
  · rename_i record hrecord
    intro other hother
    rcases List.mem_append.mp hother with hother | hother
    · exact hheard other hother
    · rw [List.mem_singleton.mp hother]
      exact parseSseLine_distinct hrecord
  · split_ifs
    · exact hheard
    · exact hheard

theorem listen_distinct {recordsTarget : Option ℤ} {ended : Except PyExc Unit} :
    ∀ {arrivals : List Arrival} {heard : Heard},
      (∀ record ∈ heard.records, (.obj record.1 : Decoded).Distinct) →
        ∀ record ∈ (listen format recordsTarget ended heard arrivals).1.records,
          (.obj record.1 : Decoded).Distinct
  | [], _, hheard => hheard
  | arrival :: rest, heard, hheard => by
    have hnext := @hear_distinct format heard hheard arrival
    rw [listen]
    split_ifs
    · exact hnext
    · cases arrival.poll with
      | error e => exact hnext
      | ok stopped =>
        cases stopped with
        | true => exact hnext
        | false => exact listen_distinct hnext

theorem heard_distinct (call : Capture σ δ) :
    ∀ record ∈ (call.heard format).1.records, (.obj record.1 : Decoded).Distinct :=
  listen_distinct (List.forall_mem_nil _)

/-! ## A pack's manifest -/

/-- A pack was built by a call. -/
structure Minted (format : Json.FloatFormat PyFloat) (sha256 : List UInt8 → String)
    (call : Capture σ δ) (dir : PackDir) (pack : ReplayPack) : Prop where
  manifest : dir.manifest format = .ok pack.toJson
  snapshot : ∃ snap : Snapshot, snap.Of format dir ∧ snap.manifest = pack.toJson ∧
    snap.contentHash format sha256 = .ok pack.contentHash
  provenance : pack.capture.lookup "provenance" =
    some (.str (authorityForSource call.live).provenance)
  holds : call.live = true → Holds format dir (call.own format)

/-! ## A genuine pack -/

/-- What a genuine pack's checks have read. -/
theorem isGenuinePack_ok {dir : PackDir} {pack : ReplayPack}
    (hmanifest : dir.manifest format = .ok pack.toJson)
    (h : isGenuinePack format sha256 str dir = .ok true) :
    verifyContentHash format sha256 dir = .ok true ∧ ∀ provenance,
      pack.capture.lookup "provenance" = some (.str provenance) →
        strip provenance = genuineTxlineProvenance := by
  unfold isGenuinePack at h
  rw [hmanifest] at h
  obtain ⟨version, -, h⟩ := bind_eq_ok.mp h
  obtain ⟨packVersion, -, h⟩ := bind_eq_ok.mp h
  split_ifs at h
  · cases h
  obtain ⟨verified, hverified, h⟩ := bind_eq_ok.mp h
  cases verified with
  | false => cases h
  | true =>
    refine ⟨hverified, fun provenance hprovenance => ?_⟩
    obtain ⟨capture, hcapture, h⟩ := bind_eq_ok.mp h
    obtain rfl : Json.obj pack.capture = capture := Except.ok.inj hcapture
    obtain ⟨value, hvalue, h⟩ := bind_eq_ok.mp h
    obtain rfl : (pack.capture.lookup "provenance").getD (.str "") = value := Except.ok.inj hvalue
    obtain ⟨_, -, h⟩ := bind_eq_ok.mp h
    obtain ⟨_, -, h⟩ := bind_eq_ok.mp h
    obtain ⟨_, -, h⟩ := bind_eq_ok.mp h
    obtain ⟨_, -, h⟩ := bind_eq_ok.mp h
    have hall := Except.ok.inj h
    simp only [Bool.and_eq_true, decide_eq_true_eq, hprovenance, Option.getD_some, strOf] at hall
    exact hall.1.1.1.1

/-- What a verified directory holds. -/
theorem verify_snapshot {dir : PackDir} (h : verifyContentHash format sha256 dir = .ok true) :
    ∃ (snap : Snapshot) (contentHash : String), snap.Of format dir ∧
      snap.contentHash format sha256 = .ok contentHash ∧
        snap.manifest.item (.str "content_hash") = .ok (.str contentHash) := by
  have hmatches : dir.hashMatches format sha256 = .ok true := by
    unfold verifyContentHash at h
    split at h
    · rename_i verified hverified
      rwa [← h]
    · split_ifs at h
      cases h
  obtain ⟨manifest, hmanifest, hmatches⟩ := bind_eq_ok.mp hmatches
  obtain ⟨version, hversion, hmatches⟩ := bind_eq_ok.mp hmatches
  obtain ⟨packVersion, hint, hmatches⟩ := bind_eq_ok.mp hmatches
  obtain ⟨fixtures, hfixtures, hmatches⟩ := bind_eq_ok.mp hmatches
  obtain ⟨capture, hcapture, hmatches⟩ := bind_eq_ok.mp hmatches
  obtain ⟨names, hnames, hmatches⟩ := bind_eq_ok.mp hmatches
  obtain ⟨files, hfiles, hmatches⟩ := bind_eq_ok.mp hmatches
  obtain ⟨recomputed, hrecomputed, hmatches⟩ := bind_eq_ok.mp hmatches
  obtain ⟨stored, hstored, hequal⟩ := bind_eq_ok.mp hmatches
  obtain ⟨rfl, hread⟩ := readFiles_ok.mp hfiles
  refine ⟨⟨manifest, fixtures, files⟩, recomputed, ⟨hmanifest, hfixtures, hnames, hread⟩,
    bind_eq_ok.mpr ⟨version, hversion, bind_eq_ok.mpr ⟨packVersion, hint, bind_eq_ok.mpr
      ⟨capture, hcapture, hrecomputed⟩⟩⟩, ?_⟩
  have heq : stored.eqv (.str recomputed) = true := Except.ok.inj hequal
  cases stored with
  | str s =>
    rw [Decoded.eqv_str, beq_iff_eq] at heq
    rw [hstored, heq]
  | null | bool | int | float | arr | obj => simp [Decoded.eqv, Decoded.number] at heq

theorem frameOf_fits {file : String × List UInt8} {raw : List UInt8} (h : fileBytes file = .ok raw) :
    (frameOf file).Fits (256 ^ 4) := by
  obtain ⟨nameLength, hname, h⟩ := bind_eq_ok.mp h
  obtain ⟨dataLength, hdata, h⟩ := bind_eq_ok.mp h
  exact ⟨(toBytes_ok hname).1, (toBytes_ok hdata).1⟩

/-- One authority and one hash, one list of files. -/
theorem files_of_sameAuthority (hsha : Function.Injective sha256)
    {files files' : List (String × List UInt8)} {packVersion : ℤ} {capture : Decoded} {h : String}
    (hhash : contentHash format sha256 files packVersion capture = .ok h)
    (hhash' : contentHash format sha256 files' packVersion capture = .ok h) : files = files' := by
  obtain ⟨parts, hparts, hhash⟩ := bind_eq_ok.mp hhash
  obtain ⟨authority, hauthority, hhash⟩ := bind_eq_ok.mp hhash
  obtain ⟨parts', hparts', hhash'⟩ := bind_eq_ok.mp hhash'
  obtain ⟨authority', hauthority', hhash'⟩ := bind_eq_ok.mp hhash'
  obtain rfl := Except.ok.inj (hauthority.symm.trans hauthority')
  have hstream := hsha ((Except.ok.inj hhash).trans (Except.ok.inj hhash').symm)
  have hflat := List.append_cancel_right hstream
  rw [framesBytes_of_mapM hparts, framesBytes_of_mapM hparts'] at hflat
  have hfits : ∀ {files : List (String × List UInt8)} {parts : List (List UInt8)},
      files.mapM fileBytes = .ok parts → ∀ f ∈ files.map frameOf, f.Fits (256 ^ 4) := by
    intro files parts hparts
    refine List.forall_mem_map.mpr fun file hfile => ?_
    obtain ⟨raw, -, hraw⟩ := exists_of_mapM_ok hparts hfile
    exact frameOf_fits hraw
  have hframes := frames_inj le_rfl (hfits hparts) (hfits hparts') (closes_nil _) (closes_nil _)
    (congrArg (· ++ []) hflat)
  exact List.map_injective_iff.mpr frameOf_injective hframes

/-- One manifest and one hash, one list of files. -/
theorem files_eq_of_manifest (hsha : Function.Injective sha256) {snap snap' : Snapshot}
    (hmanifest : snap.manifest = snap'.manifest) {h : String}
    (hhash : snap.contentHash format sha256 = .ok h)
    (hhash' : snap'.contentHash format sha256 = .ok h) : snap.files = snap'.files := by
  rw [Snapshot.contentHash, ← hmanifest] at hhash'
  obtain ⟨version, hversion, hhash⟩ := bind_eq_ok.mp hhash
  obtain ⟨packVersion, hint, hhash⟩ := bind_eq_ok.mp hhash
  obtain ⟨capture, hcapture, hhash⟩ := bind_eq_ok.mp hhash
  obtain ⟨version', hversion', hhash'⟩ := bind_eq_ok.mp hhash'
  obtain ⟨packVersion', hint', hhash'⟩ := bind_eq_ok.mp hhash'
  obtain ⟨capture', hcapture', hhash'⟩ := bind_eq_ok.mp hhash'
  have hv : version = version' := Except.ok.inj (hversion.symm.trans hversion')
  rw [← hv] at hint'
  have hp : packVersion = packVersion' := Except.ok.inj (hint.symm.trans hint')
  have hc : capture = capture' := Except.ok.inj (hcapture.symm.trans hcapture')
  rw [← hp, ← hc] at hhash'
  exact files_of_sameAuthority hsha hhash hhash'

/-- An entry's names are among the manifest's. -/
theorem entryNames_mem {fixtures : Decoded} {names : List String} {entries : List Decoded}
    (hnames : manifestFilenames fixtures = .ok names) (hentries : elements fixtures = .ok entries)
    {entry : Decoded} (hentry : entry ∈ entries) :
    ∃ part texts, entryNames entry = .ok part ∧ part.mapM nameText = .ok texts ∧
      ∀ name ∈ texts, name ∈ names := by
  obtain ⟨entries', hentries', hnames⟩ := bind_eq_ok.mp hnames
  obtain ⟨parts, hparts, hnames⟩ := bind_eq_ok.mp hnames
  obtain ⟨texts, htexts, hsorted⟩ := bind_eq_ok.mp hnames
  obtain rfl := Except.ok.inj (hentries.symm.trans hentries')
  obtain ⟨part, hpart, hentry⟩ := exists_of_mapM_ok hparts hentry
  have hmem : ∀ v ∈ part, ∃ text ∈ texts, nameText v = .ok text := fun v hv =>
    exists_of_mapM_ok htexts (List.mem_flatten_of_mem hpart hv)
  obtain ⟨own, hown⟩ : ∃ own, part.mapM nameText = .ok own := exists_mapM_ok fun v hv => by
    obtain ⟨text, -, htext⟩ := hmem v hv
    exact ⟨text, htext⟩
  refine ⟨part, own, hentry, hown, fun name hname => ?_⟩
  obtain ⟨v, hv, hname⟩ := exists_of_mem_mapM hown hname
  obtain ⟨text, htext, hv⟩ := hmem v hv
  obtain rfl := Except.ok.inj (hname.symm.trans hv)
  rw [← Except.ok.inj hsorted]
  exact (List.mem_insertionSort _).mpr htext

/-- The records of a pack are read of its manifest and the files it names. -/
theorem recordsByFixture_congr {dir dir' : PackDir} {snap snap' : Snapshot}
    (hsnap : snap.Of format dir) (hsnap' : snap'.Of format dir')
    (hmanifest : snap.manifest = snap'.manifest) (hfiles : snap.files = snap'.files) :
    dir.recordsByFixture format = dir'.recordsByFixture format := by
  have hfixtures := hsnap'.fixtures
  rw [← hmanifest] at hfixtures
  have hread : ∀ name ∈ snap.files.map Prod.fst, dir.readBytes name = dir'.readBytes name := by
    intro name hname
    obtain ⟨file, hfile, rfl⟩ := List.mem_map.mp hname
    rw [readBytes_ok.mpr (hsnap.files file hfile), readBytes_ok.mpr (hsnap'.files file (hfiles ▸ hfile))]
  simp only [PackDir.recordsByFixture, bind, Except.bind, hsnap.manifest, hsnap'.manifest, hsnap.fixtures,
    ← hmanifest]
  cases hentries : elements snap.fixtures with
  | error e => rfl
  | ok entries =>
    refine mapM_congr fun entry hentry => ?_
    obtain ⟨part, texts, hpart, htexts, hmem⟩ := entryNames_mem hsnap.names hentries hentry
    have hlegs : (texts.mapM fun name =>
        dir.readBytes name >>= fun raw => (iterLegRecords format raw).mapM id) =
          texts.mapM fun name =>
            dir'.readBytes name >>= fun raw => (iterLegRecords format raw).mapM id :=
      mapM_congr fun name hname => by rw [hread name (hmem name hname)]
    have htexts' : part.mapM nameText = .ok texts := htexts
    simp only [entryRecords, hpart, htexts', bind, Except.bind] at hlegs ⊢
    rw [hlegs]

section Calls

variable [DecidableEq σ] [DecidableEq δ]

/-! ## Histories -/

/-- The disk after some calls. -/
def Disk.runCalls (format : Json.FloatFormat PyFloat) (sha256 : List UInt8 → String)
    (str : Decoded → String) (disk : Disk σ δ) (calls : List (Capture σ δ)) : Disk σ δ :=
  calls.foldl (fun disk call => (disk.runCaptureChain format sha256 str call).1) disk

/-- A call whose live source was heard finds no record in its session directory. -/
def Fresh (format : Json.FloatFormat PyFloat) (disk : Disk σ δ) (call : Capture σ δ) : Prop :=
  call.live = true → call.own format ≠ [] → (disk.sessions call.sessionDir).records.getD [] = []

/-- Every call of a history is fresh where it is made. -/
def FreshRun (format : Json.FloatFormat PyFloat) (sha256 : List UInt8 → String)
    (str : Decoded → String) : Disk σ δ → List (Capture σ δ) → Prop
  | _, [] => True
  | disk, call :: rest => Fresh format disk call ∧
      FreshRun format sha256 str (disk.runCaptureChain format sha256 str call).1 rest

omit [DecidableEq σ] in
/-- **A built pack** contains what its session held and the call's own records. -/
theorem PackBuilt.holds {disk disk' : Disk σ δ} {call : Capture σ δ} {sessionDir : SessionDir}
    {outcome : Except PyExc (CaptureResult δ)}
    (h : PackBuilt format sha256 disk call sessionDir disk' outcome)
    (hupdates : ∀ dir fid, (disk.sessions dir).updates fid = none) {held : List (Params × ℤ)}
    (hheld : (disk.sessions call.sessionDir).records.getD [] = encode (held.flatMap fun record =>
      envelopeLine format record.1 record.2 ++ ['\n']))
    (hdistinct : ∀ record ∈ held, (.obj record.1 : Decoded).Distinct) {session : Session}
    {records : List Unwrapped} {dir : PackDir} {pack : ReplayPack}
    (hread : readRecords format sessionDir = .ok (session, records))
    (hbuilt : Built format sha256 sessionDir (disk.packs call.outDir) (authorityForSource call.live)
      session records dir pack) : Holds format dir (held.map Prod.fst ++ call.own format) := by
  have hlines : sessionDir.records = some (encode ((held ++ (call.heard format).1.records).flatMap
      fun record => envelopeLine format record.1 record.2 ++ ['\n'])) := by
    rw [h.records, hheld, List.flatMap_append, encode_append]
    rfl
  have hnone : ∀ fid, sessionDir.updates fid = none := by
    intro fid
    rw [h.sessionUpdates]
    exact hupdates call.sessionDir fid
  have hall : ∀ record ∈ held ++ (call.heard format).1.records,
      (.obj record.1 : Decoded).Distinct := by
    intro record hrecord
    rcases List.mem_append.mp hrecord with hrecord | hrecord
    · exact hdistinct record hrecord
    · exact heard_distinct call record hrecord
  have hholds := hbuilt.holds (readRecords_distinct hread).2 hnone hall
    (readRecords_lines hlines hall hread)
  rwa [List.map_append] at hholds

omit [DecidableEq σ] in
/-- **A built pack** is its call's, where a live call found no records. -/
theorem PackBuilt.minted {disk disk' : Disk σ δ} {call : Capture σ δ} {sessionDir : SessionDir}
    {outcome : Except PyExc (CaptureResult δ)}
    (h : PackBuilt format sha256 disk call sessionDir disk' outcome)
    (hupdates : ∀ dir fid, (disk.sessions dir).updates fid = none) (hfresh : Fresh format disk call)
    {session : Session} {records : List Unwrapped} {dir : PackDir} {pack : ReplayPack}
    (hread : readRecords format sessionDir = .ok (session, records))
    (hbuilt : Built format sha256 sessionDir (disk.packs call.outDir) (authorityForSource call.live)
      session records dir pack) : Minted format sha256 call dir pack := by
  have hgaps := (readRecords_distinct hread).2
  refine ⟨hbuilt.manifest hgaps, hbuilt.snapshot hgaps, ?_, ?_⟩
  · rw [hbuilt.capture]
    rfl
  · intro hlive
    have hheld : (disk.sessions call.sessionDir).records.getD [] =
        encode (([] : List (Params × ℤ)).flatMap fun record =>
          envelopeLine format record.1 record.2 ++ ['\n']) := hfresh hlive h.heard
    exact h.holds hupdates hheld (List.forall_mem_nil _) hread hbuilt

/-- What the calls of a history leave. -/
structure Left (format : Json.FloatFormat PyFloat) (sha256 : List UInt8 → String) (disk : Disk σ δ)
    (calls : List (Capture σ δ)) : Prop where
  updates : ∀ dir fid, (disk.sessions dir).updates fid = none
  manifests : ∀ out raw, (disk.packs out).files "pack.json" = some raw → ∃ call ∈ calls,
    ∃ dir pack, Minted format sha256 call dir pack ∧ dir.files "pack.json" = some raw

omit [DecidableEq σ] [DecidableEq δ] in
theorem left_empty : Left format sha256 (Disk.empty σ δ) [] := ⟨fun _ _ => rfl, nofun⟩

theorem left_runCaptureChain {disk : Disk σ δ} {calls : List (Capture σ δ)} {call : Capture σ δ}
    (h : Left format sha256 disk calls) (hfresh : Fresh format disk call) :
    Left format sha256 (disk.runCaptureChain format sha256 str call).1 (calls ++ [call]) := by
  have hkept : ∀ {out raw}, (disk.packs out).files "pack.json" = some raw →
      ∃ other ∈ calls ++ [call], ∃ dir pack, Minted format sha256 other dir pack ∧
        dir.files "pack.json" = some raw := by
    intro out raw hraw
    obtain ⟨other, hother, hminted⟩ := h.manifests out raw hraw
    exact ⟨other, List.mem_append_left _ hother, hminted⟩
  rcases @runCaptureChain_cases format sha256 str σ δ _ _ disk call with
    hnone | ⟨sessionDir, hbuilt⟩
  · refine ⟨fun dir fid => by rw [hnone.updates dir, h.updates dir fid], fun out raw hraw => ?_⟩
    rw [hnone.packs] at hraw
    exact hkept hraw
  · refine ⟨fun dir fid => by rw [hbuilt.updates dir, h.updates dir fid], fun out raw hraw => ?_⟩
    rw [hbuilt.packs] at hraw
    by_cases hout : out = call.outDir
    · subst hout
      rw [Function.update_self] at hraw
      rcases @packFromSession_cases format sha256 sessionDir (disk.packs call.outDir)
        (authorityForSource call.live) with ⟨e, he⟩ | ⟨session, records, hread, hwritten⟩
      · rw [he] at hraw
        exact hkept hraw
      · rcases hwritten with ⟨e, he⟩ | ⟨dir, pack, hpack, hdir⟩
        · rw [he, writeAll_other _ sessionFiles_ne_pack] at hraw
          exact hkept hraw
        · rw [hpack] at hraw
          exact ⟨call, List.mem_append_right _ (List.mem_singleton_self call), dir, pack,
            hbuilt.minted h.updates hfresh hread hdir, hraw⟩
    · rw [Function.update_of_ne hout] at hraw
      exact hkept hraw

/-- A pack that a call returns was built of its session, in its directory. -/
theorem built_of_result {disk : Disk σ δ} {call : Capture σ δ} {result : CaptureResult δ}
    {pack : ReplayPack} (hresult : (disk.runCaptureChain format sha256 str call).2 = .ok result)
    (hpack : result.pack = some pack) : ∃ sessionDir session records,
      PackBuilt format sha256 disk call sessionDir (disk.runCaptureChain format sha256 str call).1
        (disk.runCaptureChain format sha256 str call).2 ∧
      readRecords format sessionDir = .ok (session, records) ∧
      Built format sha256 sessionDir (disk.packs call.outDir) (authorityForSource call.live) session
        records ((disk.runCaptureChain format sha256 str call).1.packs call.outDir) pack := by
  rcases @runCaptureChain_cases format sha256 str σ δ _ _ disk call with
    hnone | ⟨sessionDir, hbuilt⟩
  · rw [hnone.result result hresult] at hpack
    exact nomatch hpack
  · obtain ⟨pack', hpack', hreturned⟩ := hbuilt.result result hresult
    obtain rfl := Option.some.inj (hreturned.symm.trans hpack)
    rcases @packFromSession_cases format sha256 sessionDir (disk.packs call.outDir)
      (authorityForSource call.live) with ⟨e, he⟩ | ⟨session, records, hread, hwritten⟩
    · rw [he] at hpack'
      exact nomatch hpack'
    · rcases hwritten with ⟨e, he⟩ | ⟨dir, pack'', hbuild, hdir⟩
      · rw [he] at hpack'
        exact nomatch hpack'
      · have hpacks := congrFun hbuilt.packs call.outDir
        rw [Function.update_self, hbuild] at hpacks
        rw [hbuild] at hpack'
        obtain rfl := Except.ok.inj hpack'
        exact ⟨sessionDir, session, records, hbuilt, hread, hpacks ▸ hdir⟩

/-- A pack that a call returns is minted in its directory. -/
theorem minted_of_result {disk : Disk σ δ} {calls : List (Capture σ δ)} {call : Capture σ δ}
    (h : Left format sha256 disk calls) (hfresh : Fresh format disk call)
    {result : CaptureResult δ} {pack : ReplayPack}
    (hresult : (disk.runCaptureChain format sha256 str call).2 = .ok result)
    (hpack : result.pack = some pack) :
    call.own format ≠ [] ∧ Minted format sha256 call
      ((disk.runCaptureChain format sha256 str call).1.packs call.outDir) pack := by
  obtain ⟨sessionDir, session, records, hbuilt, hread, hdir⟩ := built_of_result hresult hpack
  exact ⟨hbuilt.heard, hbuilt.minted h.updates hfresh hread hdir⟩

omit [DecidableEq σ] [DecidableEq δ] in
/-- **A genuine pack contains a live call's own records.** -/
theorem Left.genuine (hsha : Function.Injective sha256) {disk : Disk σ δ}
    {calls : List (Capture σ δ)} (h : Left format sha256 disk calls) {out : δ}
    (hgenuine : isGenuinePack format sha256 str (disk.packs out) = .ok true) :
    ∃ call ∈ calls, call.live = true ∧ Holds format (disk.packs out) (call.own format) := by
  cases hraw : (disk.packs out).files "pack.json" with
  | none =>
    have hmanifest : (disk.packs out).manifest format = .error fileNotFoundError := by
      simp only [PackDir.manifest, PackDir.readBytes, hraw, bind, Except.bind]
    rw [isGenuinePack, hmanifest] at hgenuine
    cases hgenuine
  | some raw =>
    obtain ⟨call, hcall, dir, pack, hminted, hdir⟩ := h.manifests out raw hraw
    have hmanifest : (disk.packs out).manifest format = .ok pack.toJson := by
      rw [← hminted.manifest]
      simp only [PackDir.manifest, PackDir.readBytes, hraw, hdir]
    obtain ⟨hverified, hprovenance⟩ := isGenuinePack_ok hmanifest hgenuine
    have hlive : call.live = true := by
      by_contra hfake
      have htext := hprovenance _ hminted.provenance
      rw [Bool.not_eq_true] at hfake
      rw [hfake] at htext
      exact absurd htext (by decide)
    obtain ⟨snap, hsnap, hpack, hhash⟩ := hminted.snapshot
    obtain ⟨snap', hash', hsnap', hhash', hstored⟩ := verify_snapshot hverified
    have hread : pack.toJson = snap'.manifest :=
      Except.ok.inj (hmanifest.symm.trans hsnap'.manifest)
    have hitem : pack.toJson.item (.str "content_hash") = .ok (.str pack.contentHash) := rfl
    rw [← hread, hitem, Except.ok.injEq, Json.str.injEq] at hstored
    rw [← hstored] at hhash'
    have hsame := hpack.trans hread
    have hfiles := files_eq_of_manifest hsha hsame hhash hhash'
    obtain ⟨hfixtures, hrecords⟩ := hminted.holds hlive
    refine ⟨call, hcall, hlive, hfixtures, ?_⟩
    rw [← recordsByFixture_congr hsnap hsnap' hsame hfiles, hrecords]

/-! ## Every history -/

/-- In a history, packs hold their calls' own records. -/
structure OwnStream (format : Json.FloatFormat PyFloat) (sha256 : List UInt8 → String)
    (str : Decoded → String) (calls : List (Capture σ δ)) : Prop where
  silent : ∀ before call after, calls = before ++ call :: after → ∀ result,
    (((Disk.empty σ δ).runCalls format sha256 str before).runCaptureChain format sha256 str call).2 =
      .ok result → call.own format = [] → result.pack = none
  returned : ∀ before call after, calls = before ++ call :: after → call.live = true →
    ∀ result pack,
    (((Disk.empty σ δ).runCalls format sha256 str before).runCaptureChain format sha256 str call).2 =
      .ok result → result.pack = some pack →
        Holds format ((((Disk.empty σ δ).runCalls format sha256 str before).runCaptureChain
          format sha256 str call).1.packs call.outDir) (call.own format)
  genuine : ∀ before after, calls = before ++ after → ∀ out,
    isGenuinePack format sha256 str
      (((Disk.empty σ δ).runCalls format sha256 str before).packs out) = .ok true →
        ∃ call ∈ before, call.live = true ∧ Holds format
          (((Disk.empty σ δ).runCalls format sha256 str before).packs out) (call.own format)

theorem FreshRun.split {disk : Disk σ δ} {calls before after : List (Capture σ δ)}
    (h : FreshRun format sha256 str disk calls) (hsplit : calls = before ++ after) :
    FreshRun format sha256 str disk before ∧
      FreshRun format sha256 str (disk.runCalls format sha256 str before) after := by
  subst hsplit
  induction before generalizing disk with
  | nil => exact ⟨trivial, h⟩
  | cons call rest ih =>
    obtain ⟨hfresh, hrest⟩ := h
    obtain ⟨hbefore, hafter⟩ := ih hrest
    exact ⟨⟨hfresh, hbefore⟩, hafter⟩

theorem left_runCalls {disk : Disk σ δ} {made calls : List (Capture σ δ)}
    (h : Left format sha256 disk made) (hfresh : FreshRun format sha256 str disk calls) :
    Left format sha256 (disk.runCalls format sha256 str calls) (made ++ calls) := by
  induction calls generalizing disk made with
  | nil => rwa [List.append_nil]
  | cons call rest ih =>
    have hnext := ih (left_runCaptureChain h hfresh.1) hfresh.2
    rwa [List.append_assoc, List.singleton_append] at hnext

/-- **Packs hold their calls' own records**: a live call's where it is returned, and a genuine one
always, in every history whose live calls each find no record in their session directory. -/
theorem genuine_packs_hold_own_stream (hsha : Function.Injective sha256)
    {calls : List (Capture σ δ)} (hfresh : FreshRun format sha256 str (Disk.empty σ δ) calls) :
    OwnStream format sha256 str calls := by
  refine ⟨?_, ?_, ?_⟩
  · intro before call after hsplit result hresult hsilent
    cases hpack : result.pack with
    | none => rfl
    | some pack =>
      obtain ⟨hbefore, hcall⟩ := hfresh.split hsplit
      obtain ⟨hheard, -⟩ :=
        minted_of_result (left_runCalls left_empty hbefore) hcall.1 hresult hpack
      exact absurd hsilent hheard
  · intro before call after hsplit hlive result pack hresult hpack
    obtain ⟨hbefore, hcall⟩ := hfresh.split hsplit
    obtain ⟨-, hminted⟩ :=
      minted_of_result (left_runCalls left_empty hbefore) hcall.1 hresult hpack
    exact hminted.holds hlive
  · intro before after hsplit out hgenuine
    obtain ⟨hbefore, -⟩ := hfresh.split hsplit
    exact (left_runCalls left_empty hbefore).genuine hsha hgenuine

end Calls

section Witness

/-- `str` of an integer. -/
def decimalStr : Decoded → String
  | .int n => toString n
  | _ => ""

/-- A later record of fixture 7. -/
def lateRecord : Params := [("FixtureId", .int 7), ("Ts", .int 2000)]

theorem spaced_lateRecord : Json.spaced ratioFormat (.obj lateRecord) =
    "\x7b\"FixtureId\": 7, \"Ts\": 2000\x7d".toList := by
  simp [lateRecord, Json.spaced, Json.spacedFields, Json.render, Json.intText, Json.decimal,
    Json.stringText, Json.signText, Json.digitsText]
  decide

theorem lateRecord_distinct : (.obj lateRecord : Decoded).Distinct :=
  ⟨by decide, trivial, trivial, trivial⟩

/-- The record's line. -/
def lateLine : String := "data: \x7b\"FixtureId\": 7, \"Ts\": 2000\x7d"

/-- The line of the first record. -/
def oddsLine : String := "data: \x7b\"FixtureId\": 7, \"Ts\": 1000\x7d"

theorem parseSseLine_data {line : String} {record : Params}
    (hdistinct : (.obj record : Decoded).Distinct) (hdata : "data:".toList <+: (strip line).toList)
    (htext : (strip (String.ofList ((strip line).toList.drop 5))).toList =
      Json.spaced format (.obj record)) : parseSseLine format line = some record := by
  have hprefix : (strip line).startsWith "data:" = true := String.startsWith_string_iff.mpr hdata
  have hother : ((strip line).isEmpty || (strip line).startsWith ":" ||
      (strip line).startsWith "event:") = false := by
    obtain ⟨rest, hrest⟩ := hdata
    rw [Bool.or_eq_false_iff, Bool.or_eq_false_iff, String.startsWith_string_eq_false_iff,
      String.startsWith_string_eq_false_iff, ← hrest]
    refine ⟨⟨?_, ?_⟩, ?_⟩
    · rw [← Bool.not_eq_true, String.isEmpty_iff]
      rintro hempty
      rw [hempty] at hrest
      exact nomatch hrest
    · simp
    · simp
  simp only [parseSseLine]
  rw [hother, hprefix, Bool.not_true, if_neg Bool.false_ne_true, if_neg Bool.false_ne_true, htext,
    Json.loads_spaced format hdistinct]

theorem parse_lateLine : parseSseLine ratioFormat lateLine = some lateRecord := by
  refine parseSseLine_data lateRecord_distinct (by decide) ?_
  rw [spaced_lateRecord]
  decide

theorem parse_oddsLine : parseSseLine ratioFormat oddsLine = some oddsRecord := by
  refine parseSseLine_data oddsRecord_distinct (by decide) ?_
  rw [spaced_oddsRecord]
  decide

/-- A call that hears one line. -/
def soleCall (live : Bool) (line : String) : Capture Unit Unit where
  live := live
  sessionDir := ()
  outDir := ()
  toolVersion := "capture_chain/1"
  startedTs := 0
  arrivals := [⟨line, 1, .ok false⟩]

theorem soleCall_heard {live : Bool} {line : String} {record : Params}
    (h : parseSseLine ratioFormat line = some record) :
    (soleCall live line).heard ratioFormat = (⟨[(record, 1)], 0, 1⟩, .ok ()) := by
  simp only [Capture.heard, soleCall, listen, Heard.hear, h]
  rfl

/-- What a directory records of a stream. -/
def streamed (stream : List (Params × ℤ)) : List UInt8 :=
  encode (stream.flatMap fun record => envelopeLine ratioFormat record.1 record.2 ++ ['\n'])

/-- The authority of a live call, hashed. -/
theorem liveAuthority_bytes (session : Session) (records : List Unwrapped) :
    ∃ raw, authorityBytes ratioFormat 2 (.obj (captureOf session records ++
      (authorityForSource true).asCaptureFields)) = .ok raw := by
  have hfields : canonicalAuthorityBytes ratioFormat (.obj (captureOf session records ++
      (authorityForSource true).asCaptureFields)) = .ok (encode (Json.dumps ratioFormat
        (.obj (authorityFields.zip ((authorityForSource true).asCaptureFields.map Prod.snd))))) :=
    rfl
  have hlength : (encode (Json.dumps ratioFormat (.obj (authorityFields.zip
      ((authorityForSource true).asCaptureFields.map Prod.snd))))).length < 256 ^ 8 := by
    decide +kernel
  have hwidth : toBytes 8 (encode (Json.dumps ratioFormat (.obj (authorityFields.zip
      ((authorityForSource true).asCaptureFields.map Prod.snd))))).length = .ok _ := if_pos hlength
  exact ⟨_, bind_eq_ok.mpr ⟨_, hfields, bind_eq_ok.mpr ⟨_, hwidth, rfl⟩⟩⟩

/-- A live session of a stream makes a pack. -/
theorem packFromSession_live {sessionDir : SessionDir} {sessionMeta : SessionMeta}
    (hmeta : sessionDir.metaJson = some sessionMeta) {stream : List (Params × ℤ)}
    (hrecords : sessionDir.records = some (streamed stream))
    (hdistinct : ∀ record ∈ stream, (.obj record.1 : Decoded).Distinct) {records : List Unwrapped}
    (hunwrap : (stream.mapM fun record => unwrap (envelope record.1 record.2)) = .ok records)
    (hstore : ∀ file ∈ sessionFiles ratioFormat sessionDir records, Storable file) (out : PackDir) :
    ∃ pack, (packFromSession ratioFormat byteText sessionDir out (some (authorityForSource true))).2 =
      .ok pack := by
  have hread : readRecords ratioFormat sessionDir = .ok (⟨sessionMeta,
      stream.map fun record => envelope record.1 record.2, []⟩, records) := by
    refine bind_eq_ok.mpr ⟨_, readSession_lines hmeta hrecords hdistinct, bind_eq_ok.mpr
      ⟨records, ?_, rfl⟩⟩
    rwa [mapM_eq_ok, List.forall₂_map_left_iff, ← mapM_eq_ok]
  obtain ⟨authority, hauthority⟩ := liveAuthority_bytes ⟨sessionMeta,
    stream.map fun record => envelope record.1 record.2, []⟩ records
  obtain ⟨h, hhash⟩ := @computeContentHash_session ratioFormat byteText sessionDir records hstore _
    (writeAll_sessionFiles out) _ _ _ hauthority
  have hbuild : ∃ pack, buildPack ratioFormat byteText
      (out.writeAll (sessionFiles ratioFormat sessionDir records)) sessionDir _ records
        (some (authorityForSource true)) = .ok pack :=
    ⟨_, bind_eq_ok.mpr ⟨(_, 2), rfl, bind_eq_ok.mpr ⟨h, hhash, rfl⟩⟩⟩
  obtain ⟨pack, hbuild⟩ := hbuild
  rw [sessionFiles] at hbuild
  refine ⟨pack, ?_⟩
  simp only [packFromSession, hread, hbuild]

/-- A session of lines of fixture 7. -/
theorem sevens_storable {sessionDir : SessionDir} (hupdates : ∀ fid, sessionDir.updates fid = none)
    {records : List Unwrapped} (hseven : ∀ record ∈ records, record.fid = 7)
    (hlength : (recordsFile ratioFormat records 7).length < 256 ^ 8) :
    ∀ file ∈ sessionFiles ratioFormat sessionDir records, Storable file := by
  intro file hfile
  obtain ⟨fid, hfid, rfl | ⟨raw, hraw, rfl⟩⟩ := mem_sessionFiles.mp hfile
  · obtain ⟨record, hrecord, rfl⟩ := List.mem_map.mp hfid
    rw [hseven record hrecord]
    exact ⟨length_recordsFilename_seven, hlength⟩
  · rw [hupdates] at hraw
    exact nomatch hraw

/-- A call that heard a record returns the pack of its session. -/
theorem mint_pack {disk : Disk Unit Unit} {call : Capture Unit Unit} {heard : Heard}
    {sessionMeta : SessionMeta} {pack : ReplayPack} (hheard : heard.records.isEmpty = false)
    (hmeta : finalizeMeta call.startMeta heard.lastFrameTs
      (recordCounts decimalStr (heard.records.map Prod.fst)) = .ok sessionMeta)
    (hpack : (packFromSession ratioFormat byteText
      ((disk.writeMeta call.sessionDir sessionMeta).sessions call.sessionDir) (disk.packs call.outDir)
        (some (authorityForSource call.live))).2 = .ok pack) :
    ∃ result, (disk.mint ratioFormat byteText decimalStr call heard).2 = .ok result ∧
      result.pack = some pack := by
  simp only [Disk.mint, hmeta, hheard]
  exact ⟨_, bind_eq_ok.mpr ⟨pack, hpack, rfl⟩, rfl⟩

/-- A live call of one line returns a pack. -/
theorem soleCall_result {disk : Disk Unit Unit} {stream : List (Params × ℤ)}
    (hheld : (disk.sessions ()).records.getD [] = streamed stream)
    (hupdates : ∀ fid, (disk.sessions ()).updates fid = none)
    (hdistinct : ∀ record ∈ stream ++ [(lateRecord, 1)], (.obj record.1 : Decoded).Distinct)
    {records : List Unwrapped} (hunwrap : ((stream ++ [(lateRecord, 1)]).mapM fun record : Params × ℤ =>
      unwrap (envelope record.1 record.2)) = .ok records)
    (hseven : ∀ record ∈ records, record.fid = 7)
    (hlength : (recordsFile ratioFormat records 7).length < 256 ^ 8) :
    ∃ result pack, (disk.runCaptureChain ratioFormat byteText decimalStr (soleCall true lateLine)).2 =
      .ok result ∧ result.pack = some pack := by
  have hheard := @soleCall_heard true lateLine lateRecord parse_lateLine
  have hlines : (soleCall true lateLine).lines ratioFormat =
      envelopeLine ratioFormat lateRecord 1 ++ ['\n'] := by
    rw [Capture.lines, hheard]
    exact List.append_nil _
  have hfinal : ∃ sessionMeta, finalizeMeta (soleCall true lateLine).startMeta 1
      (recordCounts decimalStr [lateRecord]) = .ok sessionMeta := ⟨_, rfl⟩
  obtain ⟨sessionMeta, hfinal⟩ := hfinal
  let called := (disk.writeMeta () (soleCall true lateLine).startMeta).append ()
    (envelopeLine ratioFormat lateRecord 1 ++ ['\n'])
  have hmint : disk.runCaptureChain ratioFormat byteText decimalStr (soleCall true lateLine) =
      called.mint ratioFormat byteText decimalStr (soleCall true lateLine)
        ⟨[(lateRecord, 1)], 0, 1⟩ := by
    simp only [Disk.runCaptureChain, hheard, hlines]
    rfl
  have hmeta : ((called.writeMeta () sessionMeta).sessions ()).metaJson = some sessionMeta := by
    simp [Disk.writeMeta]
  have hrecords : ((called.writeMeta () sessionMeta).sessions ()).records =
      some (streamed (stream ++ [(lateRecord, 1)])) := by
    simp only [called, Disk.writeMeta, Disk.append, Function.update_self]
    rw [hheld, streamed, streamed, List.flatMap_append, encode_append _ (List.flatMap _ _),
      List.flatMap_singleton]
  have hnone : ∀ fid, ((called.writeMeta () sessionMeta).sessions ()).updates fid = none := by
    simpa [called, Disk.writeMeta, Disk.append] using hupdates
  obtain ⟨pack, hpack⟩ := packFromSession_live hmeta hrecords hdistinct hunwrap
    (sevens_storable hnone hseven hlength) (called.packs ())
  have hheard' : (⟨[(lateRecord, 1)], 0, 1⟩ : Heard).records.isEmpty = false := rfl
  obtain ⟨result, hresult, hreturned⟩ :=
    @mint_pack called (soleCall true lateLine) _ _ _ hheard' hfinal hpack
  exact ⟨result, pack, by rw [hmint, hresult], hreturned⟩

theorem sevens_unwrap : ([(oddsRecord, 1), (lateRecord, 1)].mapM fun record : Params × ℤ =>
    unwrap (envelope record.1 record.2)) =
      .ok [⟨7, .obj oddsRecord, 1⟩, ⟨7, .obj lateRecord, 1⟩] := rfl

theorem length_sevens : (recordsFile ratioFormat [⟨7, .obj oddsRecord, 1⟩, ⟨7, .obj lateRecord, 1⟩]
    7).length < 256 ^ 8 := by
  have hfile : recordsFile ratioFormat [⟨7, .obj oddsRecord, 1⟩, ⟨7, .obj lateRecord, 1⟩] 7 =
      encode (joinLines [Json.spaced ratioFormat (.obj oddsRecord),
        Json.spaced ratioFormat (.obj lateRecord)]) := rfl
  rw [hfile, spaced_oddsRecord, spaced_lateRecord]
  decide

theorem length_late : (recordsFile ratioFormat [⟨7, .obj lateRecord, 1⟩] 7).length < 256 ^ 8 := by
  have hfile : recordsFile ratioFormat [⟨7, .obj lateRecord, 1⟩] 7 =
      encode (joinLines [Json.spaced ratioFormat (.obj lateRecord)]) := rfl
  rw [hfile, spaced_lateRecord]
  decide

theorem lateCall_own : (soleCall true lateLine).own ratioFormat = [lateRecord] := by
  rw [Capture.own, soleCall_heard parse_lateLine]
  rfl

/-- A first live call returns a pack, of its one record. -/
theorem genuine_packs_hold_own_stream_sole : ∃ result pack,
    ((Disk.empty Unit Unit).runCaptureChain ratioFormat byteText decimalStr
      (soleCall true lateLine)).2 = .ok result ∧ result.pack = some pack ∧
        Holds ratioFormat (((Disk.empty Unit Unit).runCaptureChain ratioFormat byteText decimalStr
          (soleCall true lateLine)).1.packs ()) [lateRecord] := by
  have hunwrap : (([] ++ [(lateRecord, (1 : ℤ))]).mapM fun record : Params × ℤ =>
      unwrap (envelope record.1 record.2)) = .ok [⟨7, .obj lateRecord, 1⟩] := rfl
  obtain ⟨result, pack, hresult, hpack⟩ := @soleCall_result (Disk.empty Unit Unit) [] rfl
    (fun _ => rfl) (List.forall_mem_singleton.mpr lateRecord_distinct) _ hunwrap
      (List.forall_mem_singleton.mpr rfl) length_late
  have hfresh : FreshRun ratioFormat byteText decimalStr (Disk.empty Unit Unit)
      [soleCall true lateLine] := ⟨fun _ _ => rfl, trivial⟩
  have hholds := (genuine_packs_hold_own_stream byteText_injective hfresh).returned [] _ [] rfl rfl
    result pack hresult hpack
  rw [lateCall_own] at hholds
  exact ⟨result, pack, hresult, hpack, hholds⟩

theorem mint_records (disk : Disk Unit Unit) (call : Capture Unit Unit) (heard : Heard) :
    ((disk.mint ratioFormat byteText decimalStr call heard).1.sessions ()).records =
      (disk.sessions ()).records := by
  unfold Disk.mint
  cases finalizeMeta call.startMeta heard.lastFrameTs
      (recordCounts decimalStr (heard.records.map Prod.fst)) with
  | error e => rfl
  | ok sessionMeta =>
    simp only
    split_ifs
    · simp [Disk.writeMeta]
    · simp [Disk.writePack, Disk.writeMeta]

/-- A fake's record is in the pack of the live call after it. -/
theorem inherited_record_returned :
    ¬ ∀ (format : Json.FloatFormat PyFloat) (sha256 : List UInt8 → String) (str : Decoded → String)
      (calls : List (Capture Unit Unit)), Function.Injective sha256 →
        OwnStream format sha256 str calls := by
  intro hclaim
  have hfake := @soleCall_heard false oddsLine oddsRecord parse_oddsLine
  have hlines : (soleCall false oddsLine).lines ratioFormat =
      envelopeLine ratioFormat oddsRecord 1 ++ ['\n'] := by
    rw [Capture.lines, hfake]
    exact List.append_nil _
  have hheld : ((((Disk.empty Unit Unit).runCaptureChain ratioFormat byteText decimalStr
      (soleCall false oddsLine)).1.sessions ()).records.getD []) = streamed [(oddsRecord, 1)] := by
    have hmint : ((Disk.empty Unit Unit).runCaptureChain ratioFormat byteText decimalStr
        (soleCall false oddsLine)).1 = ((((Disk.empty Unit Unit).writeMeta ()
          (soleCall false oddsLine).startMeta).append () (envelopeLine ratioFormat oddsRecord 1 ++
            ['\n'])).mint ratioFormat byteText decimalStr (soleCall false oddsLine)
              ⟨[(oddsRecord, 1)], 0, 1⟩).1 := by
      simp only [Disk.runCaptureChain, hfake, hlines]
      rfl
    rw [hmint, mint_records]
    simp [Disk.append, Disk.writeMeta, Disk.empty, streamed]
  have hleft := @left_runCaptureChain ratioFormat byteText decimalStr Unit Unit _ _ _ _
    (soleCall false oddsLine) left_empty (fun hlive => by cases hlive)
  have hdistinct : ∀ record ∈ [(oddsRecord, 1), (lateRecord, (1 : ℤ))],
      (.obj record.1 : Decoded).Distinct :=
    List.forall_mem_cons.mpr ⟨oddsRecord_distinct, List.forall_mem_singleton.mpr lateRecord_distinct⟩
  obtain ⟨result, pack, hresult, hpack⟩ := soleCall_result hheld (hleft.updates ()) hdistinct
    sevens_unwrap (List.forall_mem_cons.mpr ⟨rfl, List.forall_mem_singleton.mpr rfl⟩) length_sevens
  have hown := (hclaim ratioFormat byteText decimalStr [soleCall false oddsLine,
    soleCall true lateLine] byteText_injective).returned [soleCall false oddsLine] _ [] rfl rfl
      result pack hresult hpack
  obtain ⟨sessionDir, session, records, hbuilt, hread, hdir⟩ := built_of_result hresult hpack
  have hboth := hbuilt.holds hleft.updates hheld
    (List.forall_mem_singleton.mpr oddsRecord_distinct) hread hdir
  rw [lateCall_own] at hown hboth
  have hsame := Except.ok.inj (hown.records.symm.trans hboth.records)
  have hlengths := congrArg (List.map fun entry => entry.2.length) hsame
  exact absurd hlengths (by decide)

end Witness

end Veridex.Ingest
