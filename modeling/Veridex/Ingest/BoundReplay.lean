import Veridex.Ingest.ReplayPack
import Veridex.Lib.Keyed

/-!
# What a frozen hash binds (`load_pack_fixture_states_bound`)

The hash is of the named files, and the mapping from a fixture and a leg to a file is not in it. The
guard asks each record of a leg for the fixture, and nothing of the leg itself.

Results: `files_of_contentHash` (two packs with one hash), `frozen_replay_bound`. A file passes for the
fixture's records when its records pass the guard and make a tape.
-/

namespace Veridex.Ingest

open Veridex.Py Veridex.Lib Veridex.Runtime

variable {format : Json.FloatFormat PyFloat} {sha256 : List UInt8 → String}
  {str : Decoded → String}

/-! ## The hash -/

theorem toBytes_ok {width n : ℕ} {raw : List UInt8} (h : toBytes width n = .ok raw) :
    n < 256 ^ width ∧ raw = bigEndian width n := by
  unfold toBytes at h
  split_ifs at h with hn
  exact ⟨hn, (Except.ok.inj h).symm⟩

/-- A file as a frame of the hashed stream. -/
def frameOf (file : String × List UInt8) : Frame := (encode file.1.toList, file.2)

theorem frameOf_injective : Function.Injective frameOf := by
  rintro ⟨name, raw⟩ ⟨name', raw'⟩ h
  have hname : name.toList = name'.toList := encode_inj.mp (congrArg Prod.fst h)
  have hraw : raw = raw' := congrArg Prod.snd h
  rw [String.toList_inj.mp hname, hraw]

theorem fileBytes_ok {file : String × List UInt8} {raw : List UInt8} (h : fileBytes file = .ok raw) :
    file.2.length < 256 ^ 8 ∧ raw = (frameOf file).bytes := by
  obtain ⟨nameLength, hname, h⟩ := bind_eq_ok.mp h
  obtain ⟨dataLength, hdata, h⟩ := bind_eq_ok.mp h
  obtain ⟨-, rfl⟩ := toBytes_ok hname
  obtain ⟨hfits, rfl⟩ := toBytes_ok hdata
  exact ⟨hfits, (Except.ok.inj h).symm⟩

theorem framesBytes_of_mapM {files : List (String × List UInt8)} {parts : List (List UInt8)}
    (h : files.mapM fileBytes = .ok parts) : parts.flatten = framesBytes (files.map frameOf) := by
  have hparts := mapM_eq_ok.mp h
  induction hparts with
  | nil => rfl
  | cons hfile _ ih =>
    rw [List.flatten_cons, List.map_cons, framesBytes, List.flatMap_cons, (fileBytes_ok hfile).2,
      ih (mapM_eq_ok.mpr ‹_›), framesBytes]

/-- No name of a directory is as long as the separator would be read. -/
theorem closes_authorityBytes {packVersion : ℤ} {capture : Decoded} {raw : List UInt8}
    (h : authorityBytes format packVersion capture = .ok raw) : Closes 65536 raw := by
  unfold authorityBytes at h
  split_ifs at h
  · obtain ⟨authority, -, h⟩ := bind_eq_ok.mp h
    obtain ⟨length, -, h⟩ := bind_eq_ok.mp h
    obtain rfl := Except.ok.inj h
    have hsep : authorityDomainSep = bigEndian 4 7497072 ++ authorityDomainSep.drop 4 := by decide
    rw [hsep, List.append_assoc]
    exact closes_of_length (by decide) (by decide) _
  · obtain rfl := Except.ok.inj h
    exact closes_nil _

/-- What a hash is of. -/
theorem contentHash_ok {files : List (String × List UInt8)} {packVersion : ℤ} {capture : Decoded}
    {h : String} (hhash : contentHash format sha256 files packVersion capture = .ok h) :
    (∀ file ∈ files, file.2.length < 256 ^ 8) ∧
      ∃ authority, Closes 65536 authority ∧
        h = sha256 (framesBytes (files.map frameOf) ++ authority) := by
  obtain ⟨parts, hparts, hhash⟩ := bind_eq_ok.mp hhash
  obtain ⟨authority, hauthority, hhash⟩ := bind_eq_ok.mp hhash
  refine ⟨?_, authority, closes_authorityBytes hauthority, ?_⟩
  · intro file hfile
    obtain ⟨raw, -, hraw⟩ := exists_of_mapM_ok hparts hfile
    exact (fileBytes_ok hraw).1
  · rw [← framesBytes_of_mapM hparts]
    exact (Except.ok.inj hhash).symm

/-- **One hash, one list of files**, where no digest is another's and the names are of paths. -/
theorem files_of_contentHash (hsha : Function.Injective sha256)
    {files files' : List (String × List UInt8)} {packVersion packVersion' : ℤ}
    {capture capture' : Decoded} {h : String}
    (hshort : ∀ file ∈ files, (encode file.1.toList).length < 65536)
    (hshort' : ∀ file ∈ files', (encode file.1.toList).length < 65536)
    (hhash : contentHash format sha256 files packVersion capture = .ok h)
    (hhash' : contentHash format sha256 files' packVersion' capture' = .ok h) : files = files' := by
  obtain ⟨hfits, authority, hcloses, rfl⟩ := contentHash_ok hhash
  obtain ⟨hfits', authority', hcloses', heq⟩ := contentHash_ok hhash'
  have hframes := frames_inj (by decide) (List.forall_mem_map.mpr fun file hfile =>
      ⟨hshort file hfile, hfits file hfile⟩)
    (List.forall_mem_map.mpr fun file hfile => ⟨hshort' file hfile, hfits' file hfile⟩)
    hcloses hcloses' (hsha heq)
  exact List.map_injective_iff.mpr frameOf_injective hframes

/-! ## What a snapshot holds -/

theorem readBytes_ok {dir : PackDir} {name : String} {raw : List UInt8} :
    dir.readBytes name = .ok raw ↔ dir.files name = some raw := by
  unfold PackDir.readBytes
  cases dir.files name <;> simp

theorem mapError_ok {α : Type} {x : Except PyExc α} {f : PyExc → PyExc} {a : α} :
    x.mapError f = .ok a ↔ x = .ok a := by
  cases x <;> simp [Except.mapError]

/-- The parts of a snapshot, and where they are from. -/
structure Snapshot.Of (snap : Snapshot) (format : Json.FloatFormat PyFloat) (dir : PackDir) :
    Prop where
  manifest : dir.manifest format = .ok snap.manifest
  fixtures : snap.manifest.item (.str "fixtures") = .ok snap.fixtures
  names : manifestFilenames snap.fixtures = .ok (snap.files.map Prod.fst)
  files : ∀ file ∈ snap.files, dir.files file.1 = some file.2

theorem readFiles_ok {dir : PackDir} {names : List String} {files : List (String × List UInt8)} :
    (names.mapM fun name => do return (name, ← dir.readBytes name)) = .ok files ↔
      names = files.map Prod.fst ∧ ∀ file ∈ files, dir.files file.1 = some file.2 := by
  rw [mapM_eq_ok]
  constructor
  · intro h
    induction h with
    | nil => exact ⟨rfl, List.forall_mem_nil _⟩
    | cons hfile _ ih =>
      obtain ⟨raw, hraw, hfile⟩ := bind_eq_ok.mp hfile
      obtain rfl := Except.ok.inj hfile
      obtain ⟨rfl, hfiles⟩ := ih
      exact ⟨rfl, List.forall_mem_cons.mpr ⟨readBytes_ok.mp hraw, hfiles⟩⟩
  · rintro ⟨rfl, hfiles⟩
    rw [List.forall₂_map_left_iff, List.forall₂_same]
    intro file hfile
    exact bind_eq_ok.mpr ⟨file.2, readBytes_ok.mpr (hfiles file hfile), rfl⟩

theorem snapshot_ok {dir : PackDir} {snap : Snapshot} :
    dir.snapshot format = .ok snap ↔ snap.Of format dir := by
  rw [PackDir.snapshot, mapError_ok]
  constructor
  · intro h
    obtain ⟨manifest, hmanifest, h⟩ := bind_eq_ok.mp h
    obtain ⟨fixtures, hfixtures, h⟩ := bind_eq_ok.mp h
    obtain ⟨names, hnames, h⟩ := bind_eq_ok.mp h
    obtain ⟨files, hfiles, h⟩ := bind_eq_ok.mp h
    obtain rfl := Except.ok.inj h
    obtain ⟨rfl, hread⟩ := readFiles_ok.mp hfiles
    exact ⟨hmanifest, hfixtures, hnames, hread⟩
  · rintro ⟨hmanifest, hfixtures, hnames, hread⟩
    refine bind_eq_ok.mpr ⟨_, hmanifest, bind_eq_ok.mpr ⟨_, hfixtures, bind_eq_ok.mpr
      ⟨_, hnames, bind_eq_ok.mpr ⟨snap.files, readFiles_ok.mpr ⟨rfl, hread⟩, rfl⟩⟩⟩⟩

/-- A named file is found by its name. -/
theorem Snapshot.Of.file {snap : Snapshot} {dir : PackDir} (hsnap : snap.Of format dir)
    {name : String} {raw : List UInt8} :
    snap.file (.str name) = .ok raw ↔ (name, raw) ∈ snap.files := by
  have hfile : snap.file (.str name) =
      (snap.files.lookup name).elim (.error keyError) .ok := by
    simp only [Snapshot.file, Decoded.key, bind, Except.bind, Option.bind]
    cases snap.files.lookup name <;> rfl
  rw [hfile]
  constructor
  · intro h
    cases hfound : snap.files.lookup name with
    | none =>
      rw [hfound] at h
      cases h
    | some found =>
      rw [hfound] at h
      obtain rfl := Except.ok.inj h
      exact mem_of_lookup hfound
  · intro h
    -- A name may stand twice, with one file's bytes.
    cases hfound : snap.files.lookup name with
    | none =>
      rw [List.lookup_eq_none_iff] at hfound
      exact absurd (hfound _ h) (by simp)
    | some found =>
      have heq : some found = some raw :=
        (hsnap.files (name, found) (mem_of_lookup hfound)).symm.trans (hsnap.files (name, raw) h)
      exact congrArg Except.ok (Option.some.inj heq)

theorem Snapshot.files_eq (hsha : Function.Injective sha256) {snap snap' : Snapshot}
    {dir dir' : PackDir} (hsnap : snap.Of format dir) (hsnap' : snap'.Of format dir')
    (hstored : dir.Stored) (hstored' : dir'.Stored) {h : String}
    (hhash : snap.contentHash format sha256 = .ok h)
    (hhash' : snap'.contentHash format sha256 = .ok h) : snap.files = snap'.files := by
  obtain ⟨_, -, hhash⟩ := bind_eq_ok.mp hhash
  obtain ⟨_, -, hhash⟩ := bind_eq_ok.mp hhash
  obtain ⟨_, -, hhash⟩ := bind_eq_ok.mp hhash
  obtain ⟨_, -, hhash'⟩ := bind_eq_ok.mp hhash'
  obtain ⟨_, -, hhash'⟩ := bind_eq_ok.mp hhash'
  obtain ⟨_, -, hhash'⟩ := bind_eq_ok.mp hhash'
  exact files_of_contentHash hsha (fun file hfile => hstored _ _ (hsnap.files file hfile))
    (fun file hfile => hstored' _ _ (hsnap'.files file hfile)) hhash hhash'

/-- The manifest's bytes and the named files are the snapshot. -/
theorem Snapshot.Of.eq_of_manifest {snap snap' : Snapshot} {dir dir' : PackDir}
    (hsnap : snap.Of format dir) (hsnap' : snap'.Of format dir')
    (hmanifest : dir.files "pack.json" = dir'.files "pack.json")
    (hfiles : snap.files = snap'.files) : snap = snap' := by
  obtain ⟨manifest, fixtures, files⟩ := snap
  obtain ⟨manifest', fixtures', files'⟩ := snap'
  have heq : dir.manifest format = dir'.manifest format := by
    rw [PackDir.manifest, PackDir.manifest, PackDir.readBytes, PackDir.readBytes, hmanifest]
  obtain rfl : manifest = manifest' :=
    Except.ok.inj (hsnap.manifest.symm.trans (heq.trans hsnap'.manifest))
  obtain rfl : fixtures = fixtures' := Except.ok.inj (hsnap.fixtures.symm.trans hsnap'.fixtures)
  obtain rfl : files = files' := hfiles
  rfl

/-! ## What a load returns -/

/-- The manifest's entry for the fixture names the records file, and every leg of the entry passes the
guard. -/
def Snapshot.Own (snap : Snapshot) (format : Json.FloatFormat PyFloat) (fixtureId : ℤ)
    (raw : List UInt8) : Prop :=
  ∃ entry name, snap.entry fixtureId = .ok (some entry) ∧
    guardedLegs.forM (snap.guardLeg format fixtureId entry) = .ok () ∧
      entry.item (.str "records") = .ok name ∧ snap.file name = .ok raw

/-- A file passes for the fixture's records. -/
structure Passes (format : Json.FloatFormat PyFloat) (str : Decoded → String)
    (fixtureId batchSize : ℤ) (raw : List UInt8) (states : List MarketState) : Prop where
  guarded : guardRecords format fixtureId raw = .ok ()
  tape : tapeOf format str fixtureId batchSize raw = .ok states

theorem load_ok {dir : PackDir} {fixtureId batchSize : ℤ} {h : String} {states : List MarketState} :
    loadPackFixtureStatesBound format sha256 str dir fixtureId h batchSize = .ok states ↔
      ∃ snap : Snapshot, snap.Of format dir ∧ snap.contentHash format sha256 = .ok h ∧
        ∃ raw, snap.Own format fixtureId raw ∧
          tapeOf format str fixtureId batchSize raw = .ok states := by
  rw [loadPackFixtureStatesBound, bind_eq_ok]
  constructor
  · rintro ⟨snap, hsnap, hload⟩
    obtain ⟨recomputed, hhash, hload⟩ := bind_eq_ok.mp hload
    split_ifs at hload with heq
    rw [not_not.mp heq] at hhash
    obtain ⟨entry, hentry, hload⟩ := bind_eq_ok.mp hload
    cases entry with
    | none => exact nomatch hload
    | some entry =>
      obtain ⟨⟨⟩, hlegs, hload⟩ := bind_eq_ok.mp hload
      obtain ⟨name, hname, hload⟩ := bind_eq_ok.mp hload
      obtain ⟨raw, hraw, htape⟩ := bind_eq_ok.mp hload
      exact ⟨snap, snapshot_ok.mp hsnap, hhash, raw, ⟨entry, name, hentry, hlegs, hname, hraw⟩, htape⟩
  · rintro ⟨snap, hsnap, hhash, raw, ⟨entry, name, hentry, hlegs, hname, hraw⟩, htape⟩
    refine ⟨snap, snapshot_ok.mpr hsnap, bind_eq_ok.mpr ⟨h, hhash, ?_⟩⟩
    rw [if_neg (not_not.mpr rfl)]
    exact bind_eq_ok.mpr ⟨some entry, hentry, bind_eq_ok.mpr ⟨(), hlegs, bind_eq_ok.mpr
      ⟨name, hname, bind_eq_ok.mpr ⟨raw, hraw, htape⟩⟩⟩⟩

theorem item_get {entry name leg v : Decoded} {text : String} (hitem : entry.item (.str text) = .ok name)
    (hget : entry.get text leg = .ok v) : v = name := by
  cases entry with
  | obj fields =>
    simp only [Decoded.item, Decoded.key, Decoded.get, bind, Except.bind, Option.bind] at hitem hget
    cases hfound : fields.lookup text with
    | none => simp [hfound] at hitem
    | some found =>
      rw [hfound] at hitem hget
      obtain rfl := Except.ok.inj hitem
      exact (Except.ok.inj hget).symm
  | null | bool | int | float | str | arr => simp [Decoded.get] at hget

/-- The records a fixture's entry names pass the guard themselves. -/
theorem Snapshot.Own.guarded {snap : Snapshot} {dir : PackDir} (hsnap : snap.Of format dir)
    {fixtureId : ℤ} {raw : List UInt8} (hown : snap.Own format fixtureId raw) :
    (∃ name, (name, raw) ∈ snap.files) ∧ guardRecords format fixtureId raw = .ok () := by
  obtain ⟨entry, name, -, hlegs, hname, hraw⟩ := hown
  obtain ⟨⟨⟩, hrecords, -⟩ := bind_eq_ok.mp hlegs
  obtain ⟨v, hv, hguard⟩ := bind_eq_ok.mp hrecords
  obtain rfl := item_get hname hv
  cases v with
  | str name =>
    obtain ⟨found, hfound, hguard⟩ := bind_eq_ok.mp hguard
    rw [hraw] at hfound
    obtain rfl := Except.ok.inj hfound
    exact ⟨⟨name, hsnap.file.mp hraw⟩, hguard⟩
  | null | bool | int | float | arr | obj =>
    simp [Snapshot.file, Decoded.key, bind, Except.bind] at hraw

/-! ## The relabelled pack -/

/-- An entry that names one file for a fixture's records. -/
def entryFor (fixtureId : ℤ) (name : String) : Decoded :=
  .obj [("fixture_id", .int fixtureId), ("records", .str name)]

/-- A manifest of the same files that names one of them for the fixture's records. -/
def relabelled (packVersion capture : Decoded) (fixtureId : ℤ) (names : List String) (name : String) :
    Decoded :=
  .obj [("pack_version", packVersion), ("capture", capture),
    ("fixtures", .arr ((name :: names.erase name).map (entryFor fixtureId)))]

/-- A directory with another manifest. -/
def PackDir.withManifest (dir : PackDir) (format : Json.FloatFormat PyFloat) (manifest : Decoded) :
    PackDir where
  files name := if name = "pack.json" then some (encode (Json.spaced format manifest)) else dir.files name

theorem PackDir.Stored.withManifest {dir : PackDir} (h : dir.Stored) (manifest : Decoded) :
    (dir.withManifest format manifest).Stored := by
  intro name raw hname
  by_cases hpack : name = "pack.json"
  · rw [hpack]
    decide
  · simp only [PackDir.withManifest, if_neg hpack] at hname
    exact h name raw hname

theorem withManifest_manifest (dir : PackDir) {manifest : Decoded} (h : manifest.Distinct) :
    (dir.withManifest format manifest).manifest format = .ok manifest := by
  simp only [PackDir.manifest, PackDir.readBytes, PackDir.withManifest, if_true, bind, Except.bind,
    decode_encode, jsonLoads, Json.loads_spaced format h]

theorem entryNames_entryFor (fixtureId : ℤ) (name : String) :
    entryNames (entryFor fixtureId name) = .ok [.str name] := rfl

theorem manifestFilenames_entries (fixtureId : ℤ) (names : List String) :
    manifestFilenames (.arr (names.map (entryFor fixtureId))) =
      .ok (names.insertionSort (· ≤ ·)) := by
  have hentries : (names.map (entryFor fixtureId)).mapM entryNames =
      .ok (names.map fun name => [.str name]) := by
    rw [mapM_eq_ok, List.forall₂_map_left_iff, List.forall₂_map_right_iff, List.forall₂_same]
    exact fun name _ => entryNames_entryFor fixtureId name
  have hflat : (names.map fun name => ([.str name] : List Decoded)).flatten =
      names.map fun name => (.str name : Decoded) := by
    rw [← List.flatMap_def, ← List.map_eq_flatMap]
  have hnames : (names.map fun name => (.str name : Decoded)).mapM nameText = .ok names := by
    rw [mapM_eq_ok, List.forall₂_map_left_iff, List.forall₂_same]
    exact fun name _ => rfl
  simp only [manifestFilenames, elements, bind, Except.bind, hentries, hflat, hnames]
  rfl

/-- Sorting forgets the order. -/
theorem insertionSort_of_perm {names names' : List String} (hperm : names.Perm names')
    (hsorted : names'.Pairwise (· ≤ ·)) : names.insertionSort (· ≤ ·) = names' :=
  ((List.perm_insertionSort _ names).trans hperm).eq_of_pairwise
    (fun _ _ _ _ => le_antisymm) (List.pairwise_insertionSort _ names) hsorted

theorem relabelled_distinct {packVersion capture : Decoded} (hversion : packVersion.Distinct)
    (hcapture : capture.Distinct) (fixtureId : ℤ) (names : List String) (name : String) :
    (relabelled packVersion capture fixtureId names name).Distinct := by
  have hentry : ∀ name, (entryFor fixtureId name).Distinct := by
    intro name
    exact ⟨by simp, trivial, trivial, trivial⟩
  have hentries : ((name :: names.erase name).map (entryFor fixtureId)).Forall Json.Distinct :=
    List.forall_iff_forall_mem.mpr (List.forall_mem_map.mpr fun name _ => hentry name)
  exact ⟨by simp, hversion, hcapture,
    Json.distinctItems_iff.mpr (List.forall_iff_forall_mem.mp hentries), trivial⟩

/-- A value of a dictionary, or what stands for a missing one, has no key twice. -/
theorem distinct_get {v default found : Decoded} {name : String} (hv : v.Distinct)
    (hdefault : default.Distinct) (h : v.get name default = .ok found) : found.Distinct := by
  cases v with
  | obj fields =>
    obtain rfl := Except.ok.inj h
    cases hfound : fields.lookup name with
    | none => exact hdefault
    | some value => exact Json.distinctFields_iff.mp hv.2 _ (mem_of_lookup hfound)
  | null | bool | int | float | str | arr => simp [Decoded.get] at h

theorem manifest_distinct {dir : PackDir} {manifest : Decoded}
    (h : dir.manifest format = .ok manifest) : manifest.Distinct := by
  obtain ⟨raw, -, h⟩ := bind_eq_ok.mp h
  obtain ⟨text, -, h⟩ := bind_eq_ok.mp h
  unfold jsonLoads at h
  split at h
  · rename_i found hfound
    obtain rfl := Except.ok.inj h
    exact Json.distinct_of_loads format hfound
  · exact nomatch h

/-- A snapshot of the same files under that manifest. -/
def Snapshot.relabel (snap : Snapshot) (packVersion capture : Decoded) (fixtureId : ℤ)
    (name : String) : Snapshot where
  manifest := relabelled packVersion capture fixtureId (snap.files.map Prod.fst) name
  fixtures := .arr ((name :: (snap.files.map Prod.fst).erase name).map (entryFor fixtureId))
  files := snap.files

theorem relabel_of {snap : Snapshot} {dir : PackDir} (hsnap : snap.Of format dir)
    (hpack : "pack.json" ∉ snap.files.map Prod.fst) {packVersion capture : Decoded}
    (hversion : packVersion.Distinct) (hcapture : capture.Distinct) (fixtureId : ℤ) {name : String}
    (hname : name ∈ snap.files.map Prod.fst) :
    (snap.relabel packVersion capture fixtureId name).Of format (dir.withManifest format
      (relabelled packVersion capture fixtureId (snap.files.map Prod.fst) name)) := by
  refine ⟨withManifest_manifest dir (relabelled_distinct hversion hcapture _ _ _), rfl, ?_, ?_⟩
  · -- The names are the same, and sorted already.
    have hsorted : (snap.files.map Prod.fst).Pairwise (· ≤ ·) := by
      obtain ⟨entries, -, hnames⟩ := bind_eq_ok.mp hsnap.names
      obtain ⟨parts, -, hnames⟩ := bind_eq_ok.mp hnames
      obtain ⟨names, -, hnames⟩ := bind_eq_ok.mp hnames
      rw [← Except.ok.inj hnames]
      exact List.pairwise_insertionSort _ names
    exact (manifestFilenames_entries fixtureId _).trans
      (congrArg Except.ok (insertionSort_of_perm (List.perm_cons_erase hname).symm hsorted))
  · intro file hfile
    have hne : file.1 ≠ "pack.json" := fun heq => hpack (heq ▸ List.mem_map_of_mem hfile)
    simp only [PackDir.withManifest, if_neg hne]
    exact hsnap.files file hfile

theorem relabel_entry (snap : Snapshot) (packVersion capture : Decoded) (fixtureId : ℤ)
    (name : String) : (snap.relabel packVersion capture fixtureId name).entry fixtureId =
      .ok (some (entryFor fixtureId name)) := by
  have hid : (entryFor fixtureId name).item (.str "fixture_id") = .ok (.int fixtureId) := rfl
  have hint : intOf (.int fixtureId) = .ok fixtureId := rfl
  simp only [Snapshot.entry, Snapshot.relabel, elements, List.map_cons, firstEntry, bind,
    Except.bind, hid, hint, pure, Except.pure, decide_true, if_true]

/-- A passing file's entry is guarded: it has no other leg. -/
theorem relabel_guarded {snap : Snapshot} {fixtureId : ℤ} {name : String} {raw : List UInt8}
    (hraw : snap.file (.str name) = .ok raw)
    (hguard : guardRecords format fixtureId raw = .ok ()) :
    guardedLegs.forM (snap.guardLeg format fixtureId (entryFor fixtureId name)) = .ok () := by
  have hrecords : snap.guardLeg format fixtureId (entryFor fixtureId name) "records" = .ok () :=
    bind_eq_ok.mpr ⟨.str name, rfl, bind_eq_ok.mpr ⟨raw, hraw, hguard⟩⟩
  exact bind_eq_ok.mpr ⟨(), hrecords, rfl⟩

/-- **Any file that passes** is replayed under some manifest of the same hash. -/
theorem relabelled_load {dir : PackDir} (hstored : dir.Stored) {snap : Snapshot} {h : String}
    (hsnap : snap.Of format dir)
    (hhash : snap.contentHash format sha256 = .ok h) (hpack : "pack.json" ∉ snap.files.map Prod.fst)
    {file : String × List UInt8} (hfile : file ∈ snap.files) {fixtureId batchSize : ℤ}
    {states : List MarketState} (hpasses : Passes format str fixtureId batchSize file.2 states) :
    ∃ dir' : PackDir, dir'.Stored ∧
      loadPackFixtureStatesBound format sha256 str dir' fixtureId h batchSize = .ok states := by
  obtain ⟨rawVersion, hversion, hrest⟩ := bind_eq_ok.mp hhash
  obtain ⟨packVersion, hint, hrest⟩ := bind_eq_ok.mp hrest
  obtain ⟨capture, hcapture, hrest⟩ := bind_eq_ok.mp hrest
  have hdistinct := manifest_distinct hsnap.manifest
  have hone : (Json.int 1 : Decoded).Distinct := trivial
  have hempty : (Json.obj [] : Decoded).Distinct := ⟨List.nodup_nil, trivial⟩
  have hof := relabel_of hsnap hpack (distinct_get hdistinct hone hversion)
    (distinct_get hdistinct hempty hcapture) fixtureId (List.mem_map_of_mem hfile)
  have hraw : (snap.relabel rawVersion capture fixtureId file.1).file (.str file.1) = .ok file.2 :=
    hof.file.mpr hfile
  have hhash' : (snap.relabel rawVersion capture fixtureId file.1).contentHash format sha256 = .ok h :=
    bind_eq_ok.mpr ⟨rawVersion, rfl, bind_eq_ok.mpr ⟨packVersion, hint,
      bind_eq_ok.mpr ⟨capture, rfl, hrest⟩⟩⟩
  exact ⟨_, hstored.withManifest _, load_ok.mpr ⟨_, hof, hhash', file.2, ⟨entryFor fixtureId file.1, .str file.1,
    relabel_entry .., relabel_guarded hraw hpasses.guarded, rfl, hraw⟩, hpasses.tape⟩⟩

/-! ## The result -/

/-- **Which packs replay one tape** under their hash, however their manifest is written: those whose
files, where one passes for the fixture's records, make the tape of the fixture's own records; and
those that hash their manifest. -/
theorem frozen_replay_bound (hsha : Function.Injective sha256) {dir : PackDir}
    (hstored : dir.Stored) {snap : Snapshot} {h : String} (hsnap : dir.snapshot format = .ok snap)
    (hhash : snap.contentHash format sha256 = .ok h) (fixtureId batchSize : ℤ) :
    (∀ dir' : PackDir, dir'.Stored → ∀ states,
      loadPackFixtureStatesBound format sha256 str dir' fixtureId h batchSize = .ok states →
        loadPackFixtureStatesBound format sha256 str dir fixtureId h batchSize = .ok states) ↔
      "pack.json" ∈ snap.files.map Prod.fst ∨
        ∀ file ∈ snap.files, ∀ states, Passes format str fixtureId batchSize file.2 states →
          ∃ raw, snap.Own format fixtureId raw ∧
            tapeOf format str fixtureId batchSize raw = .ok states := by
  have hof := snapshot_ok.mp hsnap
  constructor
  · intro hbound
    by_cases hpack : "pack.json" ∈ snap.files.map Prod.fst
    · exact .inl hpack
    · refine .inr fun file hfile states hpasses => ?_
      obtain ⟨dir', hstored', hload⟩ := relabelled_load hstored hof hhash hpack hfile hpasses
      obtain ⟨snap', hof', -, raw, hown, htape⟩ := load_ok.mp (hbound dir' hstored' states hload)
      have heq : snap' = snap := Except.ok.inj ((snapshot_ok.mpr hof').symm.trans hsnap)
      exact ⟨raw, heq ▸ hown, htape⟩
  · intro hcondition dir' hstored' states hload
    obtain ⟨snap', hof', hhash', raw, hown, htape⟩ := load_ok.mp hload
    have hfiles : snap'.files = snap.files := Snapshot.files_eq hsha hof' hof hstored' hstored hhash' hhash
    rcases hcondition with hpack | hcondition
    · have heq : dir'.files "pack.json" = dir.files "pack.json" := by
        obtain ⟨file, hfile, hname⟩ := List.mem_map.mp hpack
        rw [← hname, hof.files file hfile, hof'.files file (hfiles ▸ hfile)]
      rw [hof'.eq_of_manifest hof heq hfiles] at hhash' hown
      exact load_ok.mpr ⟨snap, hof, hhash', raw, hown, htape⟩
    · obtain ⟨⟨name, hmem⟩, hguard⟩ := hown.guarded hof'
      rw [hfiles] at hmem
      obtain ⟨own, hown, htape⟩ := hcondition (name, raw) hmem states ⟨hguard, htape⟩
      exact load_ok.mpr ⟨snap, hof, hhash, own, hown, htape⟩

section Witness

/-- A digest that keeps the bytes. -/
def byteText (raw : List UInt8) : String := String.ofList (raw.map fun b => Char.ofNat b.toNat)

theorem toNat_byteChar (b : UInt8) : (Char.ofNat b.toNat).toNat = b.toNat := by
  have hvalid : b.toNat.isValidChar := .inl (by have := b.toNat_lt; omega)
  rw [Char.ofNat, dif_pos hvalid]
  rfl

theorem byteText_injective : Function.Injective byteText := by
  intro raw raw' h
  have hbyte : Function.Injective fun b : UInt8 => Char.ofNat b.toNat := by
    intro b b' h
    have hnat := congrArg Char.toNat h
    rw [toNat_byteChar, toNat_byteChar] at hnat
    exact UInt8.toNat_inj.mp hnat
  exact List.map_injective_iff.mpr hbyte (String.ofList_injective h)

/-- A record of fixture 7. -/
def oddsRecord : Params := [("FixtureId", .int 7), ("Ts", .int 1000)]

theorem spaced_oddsRecord : Json.spaced ratioFormat (.obj oddsRecord) =
    "\x7b\"FixtureId\": 7, \"Ts\": 1000\x7d".toList := by
  simp [oddsRecord, Json.spaced, Json.spacedFields, Json.render, Json.intText, Json.decimal,
    Json.stringText, Json.signText, Json.digitsText]
  decide

theorem oddsRecord_distinct : (.obj oddsRecord : Decoded).Distinct :=
  ⟨by decide, trivial, trivial, trivial⟩

/-- The records leg: the record, on a line. -/
def oddsFile : List UInt8 := encode (joinLines [Json.spaced ratioFormat (.obj oddsRecord)])

/-- The backfill leg: an array of the record, twice. -/
def updatesFile : List UInt8 :=
  encode (Json.spaced ratioFormat (.arr [.obj oddsRecord, .obj oddsRecord]))

theorem length_oddsFile : oddsFile.length < 256 ^ 8 := by
  rw [oddsFile, spaced_oddsRecord]
  decide

theorem length_updatesFile : updatesFile.length < 256 ^ 8 := by
  rw [updatesFile, Json.spaced, Json.spacedItems, Json.spacedItems, spaced_oddsRecord]
  decide

theorem oddsFile_records : iterLegRecords ratioFormat oddsFile = [.ok oddsRecord] := by
  have hends : Json.Ends ['\n'] := Json.ends_cons ⟨by decide, by decide⟩ []
  rw [iterLegRecords, oddsFile, decode_encode, joinLines_singleton]
  simp only [Json.loads_spaced_append ratioFormat oddsRecord_distinct hends]
  rfl

theorem updatesFile_records :
    iterLegRecords ratioFormat updatesFile = [.ok oddsRecord, .ok oddsRecord] := by
  have hdistinct : (.arr [.obj oddsRecord, .obj oddsRecord] : Decoded).Distinct :=
    ⟨oddsRecord_distinct, oddsRecord_distinct, trivial⟩
  rw [iterLegRecords, updatesFile, decode_encode]
  simp only [Json.loads_spaced ratioFormat hdistinct]
  rfl

theorem oddsFile_passes : ∃ states, states.length = 1 ∧
    Passes ratioFormat (fun _ => "") 7 1 oddsFile states := by
  have hguard : guardRecords ratioFormat 7 oddsFile = .ok () := by
    rw [guardRecords, oddsFile_records]
    rfl
  have htape : ∃ states, tapeOf ratioFormat (fun _ => "") 7 1 oddsFile = .ok states ∧
      states.length = 1 := by
    rw [tapeOf, oddsFile_records]
    exact ⟨_, rfl, rfl⟩
  obtain ⟨states, htape, hlength⟩ := htape
  exact ⟨states, hlength, hguard, htape⟩

theorem updatesFile_passes : ∃ states, states.length = 2 ∧
    Passes ratioFormat (fun _ => "") 7 1 updatesFile states := by
  have hguard : guardRecords ratioFormat 7 updatesFile = .ok () := by
    rw [guardRecords, updatesFile_records]
    rfl
  have htape : ∃ states, tapeOf ratioFormat (fun _ => "") 7 1 updatesFile = .ok states ∧
      states.length = 2 := by
    rw [tapeOf, updatesFile_records]
    exact ⟨_, rfl, rfl⟩
  obtain ⟨states, htape, hlength⟩ := htape
  exact ⟨states, hlength, hguard, htape⟩

/-- A directory with the two legs. -/
def legsDir : PackDir where
  files name := if name = "odds_7.jsonl" then some oddsFile
    else if name = "updates_7.json" then some updatesFile else none

theorem legsDir_stored : legsDir.Stored := by
  intro name raw h
  simp only [legsDir] at h
  split_ifs at h with hodds hupdates
  · rw [hodds]
    decide
  · rw [hupdates]
    decide

/-- The pack of the records leg alone. -/
def solePack : PackDir := legsDir.withManifest ratioFormat
  (relabelled (.int 1) (.obj []) 7 ["odds_7.jsonl"] "odds_7.jsonl")

/-- The pack's snapshot. -/
def soleSnapshot : Snapshot where
  manifest := relabelled (.int 1) (.obj []) 7 ["odds_7.jsonl"] "odds_7.jsonl"
  fixtures := .arr [entryFor 7 "odds_7.jsonl"]
  files := [("odds_7.jsonl", oddsFile)]

/-- The entry of a backfilled fixture. -/
def backfilledEntry : Decoded := .obj [("fixture_id", .int 7), ("records", .str "odds_7.jsonl"),
  ("odds_updates", .str "updates_7.json")]

def backfilledManifest : Decoded := .obj [("pack_version", .int 1), ("capture", .obj []),
  ("fixtures", .arr [backfilledEntry])]

/-- The pack of both legs. -/
def backfilledPack : PackDir := legsDir.withManifest ratioFormat backfilledManifest

/-- The pack's snapshot. -/
def backfilledSnapshot : Snapshot where
  manifest := backfilledManifest
  fixtures := .arr [backfilledEntry]
  files := [("odds_7.jsonl", oddsFile), ("updates_7.json", updatesFile)]

theorem solePack_snapshot : soleSnapshot.Of ratioFormat solePack := by
  refine ⟨withManifest_manifest legsDir ?_, rfl, rfl, ?_⟩
  · have hversion : (.int 1 : Decoded).Distinct := trivial
    have hcapture : (.obj [] : Decoded).Distinct := ⟨List.nodup_nil, trivial⟩
    exact relabelled_distinct hversion hcapture 7 _ _
  · exact List.forall_mem_singleton.mpr rfl

theorem backfilledPack_snapshot : backfilledSnapshot.Of ratioFormat backfilledPack := by
  refine ⟨withManifest_manifest legsDir ?_, rfl, rfl, ?_⟩
  · exact ⟨by decide, trivial, ⟨List.nodup_nil, trivial⟩,
      ⟨⟨by decide, trivial, trivial, trivial, trivial⟩, trivial⟩, trivial⟩
  · exact List.forall_mem_cons.mpr ⟨rfl, List.forall_mem_singleton.mpr rfl⟩

theorem fileBytes_of_length {name : String} {raw : List UInt8}
    (hname : (encode name.toList).length < 256 ^ 4) (hraw : raw.length < 256 ^ 8) :
    fileBytes (name, raw) = .ok (frameOf (name, raw)).bytes := by
  simp only [fileBytes, toBytes, if_pos hname, if_pos hraw]
  rfl

theorem solePack_hash : ∃ h, soleSnapshot.contentHash ratioFormat byteText = .ok h := by
  refine ⟨_, bind_eq_ok.mpr ⟨.int 1, rfl, bind_eq_ok.mpr ⟨1, rfl, bind_eq_ok.mpr ⟨.obj [], rfl,
    bind_eq_ok.mpr ⟨[(frameOf ("odds_7.jsonl", oddsFile)).bytes], mapM_eq_ok.mpr ?_, rfl⟩⟩⟩⟩⟩
  exact .cons (fileBytes_of_length (by decide) length_oddsFile) .nil

theorem backfilledPack_hash : ∃ h, backfilledSnapshot.contentHash ratioFormat byteText = .ok h := by
  refine ⟨_, bind_eq_ok.mpr ⟨.int 1, rfl, bind_eq_ok.mpr ⟨1, rfl, bind_eq_ok.mpr ⟨.obj [], rfl,
    bind_eq_ok.mpr ⟨[(frameOf ("odds_7.jsonl", oddsFile)).bytes,
      (frameOf ("updates_7.json", updatesFile)).bytes], mapM_eq_ok.mpr ?_, rfl⟩⟩⟩⟩⟩
  exact .cons (fileBytes_of_length (by decide) length_oddsFile)
    (.cons (fileBytes_of_length (by decide) length_updatesFile) .nil)

theorem solePack_own : soleSnapshot.Own ratioFormat 7 oddsFile := by
  obtain ⟨states, -, hpasses⟩ := oddsFile_passes
  exact ⟨entryFor 7 "odds_7.jsonl", .str "odds_7.jsonl", rfl, relabel_guarded rfl hpasses.guarded, rfl,
    rfl⟩

theorem backfilledPack_own : backfilledSnapshot.Own ratioFormat 7 oddsFile := by
  obtain ⟨_, -, hodds⟩ := oddsFile_passes
  obtain ⟨_, -, hupdates⟩ := updatesFile_passes
  refine ⟨backfilledEntry, .str "odds_7.jsonl", rfl, ?_, rfl, rfl⟩
  have hrecords : backfilledSnapshot.guardLeg ratioFormat 7 backfilledEntry "records" = .ok () :=
    bind_eq_ok.mpr ⟨.str "odds_7.jsonl", rfl, bind_eq_ok.mpr ⟨oddsFile, rfl, hodds.guarded⟩⟩
  have hbackfill : backfilledSnapshot.guardLeg ratioFormat 7 backfilledEntry "odds_updates" = .ok () :=
    bind_eq_ok.mpr ⟨.str "updates_7.json", rfl, bind_eq_ok.mpr ⟨updatesFile, rfl, hupdates.guarded⟩⟩
  exact bind_eq_ok.mpr ⟨(), hrecords, bind_eq_ok.mpr ⟨(), hbackfill, rfl⟩⟩

/-- A pack of one leg replays one tape under its hash. -/
theorem frozen_replay_bound_sole : ∃ h, ∀ dir' : PackDir, dir'.Stored → ∀ states,
    loadPackFixtureStatesBound ratioFormat byteText (fun _ => "") dir' 7 h 1 = .ok states →
      loadPackFixtureStatesBound ratioFormat byteText (fun _ => "") solePack 7 h 1 = .ok states := by
  obtain ⟨h, hhash⟩ := solePack_hash
  refine ⟨h, (frozen_replay_bound byteText_injective (legsDir_stored.withManifest _)
    (snapshot_ok.mpr solePack_snapshot) hhash 7 1).mpr (.inr ?_)⟩
  intro file hfile states hpasses
  rw [List.mem_singleton.mp hfile] at hpasses
  exact ⟨oddsFile, solePack_own, hpasses.tape⟩

/-- A manifest that swaps the legs of its fixture replays the backfill, under one hash. -/
theorem relabelled_leg_replayed :
    ¬ ∀ (format : Json.FloatFormat PyFloat) (sha256 : List UInt8 → String) (str : Decoded → String)
      (dir dir' : PackDir) (fixtureId batchSize : ℤ) (h : String) (states states' : List MarketState),
      Function.Injective sha256 → dir.Stored → dir'.Stored →
        loadPackFixtureStatesBound format sha256 str dir fixtureId h batchSize = .ok states →
          loadPackFixtureStatesBound format sha256 str dir' fixtureId h batchSize = .ok states' →
            states' = states := by
  intro hclaim
  obtain ⟨h, hhash⟩ := backfilledPack_hash
  obtain ⟨states, hlength, hodds⟩ := oddsFile_passes
  obtain ⟨states', hlength', hupdates⟩ := updatesFile_passes
  have hload := load_ok.mpr ⟨backfilledSnapshot, backfilledPack_snapshot, hhash, oddsFile,
    backfilledPack_own, hodds.tape⟩
  have hfile : ("updates_7.json", updatesFile) ∈ backfilledSnapshot.files := by
    simp [backfilledSnapshot]
  have hstored : backfilledPack.Stored := legsDir_stored.withManifest _
  obtain ⟨dir', hstored', hload'⟩ :=
    relabelled_load hstored backfilledPack_snapshot hhash (by decide) hfile hupdates
  have heq := hclaim _ _ _ _ _ _ _ _ _ _ byteText_injective hstored hstored' hload hload'
  rw [heq, hlength] at hlength'
  exact absurd hlength' (by decide)

end Witness

end Veridex.Ingest
