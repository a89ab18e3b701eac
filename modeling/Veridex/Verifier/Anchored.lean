import Veridex.Runtime.Competition
import Veridex.Runtime.LiveLabels

/-!
# What the verifier makes of what was anchored (`verifier/recompute.py`)

Both producers hash the manifest of the run they sealed. The competition's has the root forest, as the
verifier's; the live window's has not.

Results: `verifyRun_sealed` (a sealed run that scores), `anchored_manifest_reproduced`.
-/

namespace Veridex.Verifier

open Veridex.Py Veridex.Lib Veridex.Runtime Veridex.Law Veridex.Scoring Veridex.Checks

variable {format : Json.FloatFormat PyFloat} {sha256 : List Char → String}
  {str : Decoded → String}

/-! ## The report -/

/-- **A sealed run that scores** is verified, under the identity it is given. -/
theorem verifyRun_sealed {run : RunResult} {scores : List Metrics}
    (hevidence : computeEvidenceHash format sha256 (run.runEvents.map RunEvent.toDict) =
      .ok run.evidenceHash)
    (hscores : scoreRun run = .ok scores) (identity : String) :
    (verifyRun format sha256 str run (some identity)).verified = true ∧
      (verifyRun format sha256 str run (some identity)).manifestHash =
        runManifestHash format sha256 (rootedManifest format sha256 run identity scores) := by
  simp [verifyRun, hevidence, hscores, resolveId, VerifyReport.verified]

/-! ## Two manifests -/

theorem manifestText_ne (run : RunResult) (identity : String) (scores : List Metrics) :
    manifestText format (manifestFromRun run identity (recomputeScoreRoot format sha256 scores)) ≠
      manifestText format (rootedManifest format sha256 run identity scores) := by
  intro htext
  have hsorted := (Json.dumps_inj format).mp htext
  rw [Json.sorted, Json.sorted, Json.obj.injEq] at hsorted
  have hlookup := congrArg (List.lookup "root_forest") hsorted
  rw [Json.lookup_sortedFields, Json.lookup_sortedFields] at hlookup
  exact nomatch hlookup

/-! ## The producers -/

/-- A run that is sealed and whose manifest is hashed. -/
inductive Producer where
  | demo (inputs : DemoInputs)
  | live (inputs : LiveInputs)

/-- What is anchored: the sealed run, the identity its manifest binds, and the manifest's hash. -/
structure Anchored where
  run : RunResult
  identity : String
  manifestHash : String

/-- What a producer anchors. -/
def Producer.anchors (format : Json.FloatFormat PyFloat) (sha256 : List Char → String)
    (str : Decoded → String) : Producer → Except PyExc Anchored
  | demo inputs => do
    let result ← runDemoCompetition format sha256 inputs
    return ⟨result.run, fixtureOrWindowId (inputs.ticks.map Prod.fst), result.manifestHash⟩
  | live inputs => do
    let bundle ← runLiveWindow format sha256 str inputs
    return ⟨bundle.run, inputs.window.windowId, bundle.manifestHash⟩

/-- The verifier reports the run verified, with the hash that was anchored. -/
def Anchored.Reproduced (format : Json.FloatFormat PyFloat) (sha256 : List Char → String)
    (str : Decoded → String) (anchored : Anchored) : Prop :=
  (verifyRun format sha256 str anchored.run (some anchored.identity)).verified = true ∧
    (verifyRun format sha256 str anchored.run (some anchored.identity)).manifestHash =
      anchored.manifestHash

/-- What a competition's run was sealed from. -/
theorem runCompetition_ok {inputs : DemoInputs} {result : RunResult}
    (h : runCompetition format sha256 inputs = .ok result) :
    computeEvidenceHash format sha256 (result.runEvents.map RunEvent.toDict) =
      .ok result.evidenceHash := by
  obtain ⟨run, -, h⟩ := bind_eq_ok.mp h
  unfold CompetitionRun.finalize at h
  split_ifs at h
  simp only at h
  split at h
  · exact nomatch h
  · exact nomatch h
  · rename_i sealedResult _ hsealed _
    obtain rfl := Except.ok.inj h
    obtain ⟨hhash, -, hevents, -⟩ := result_parts hsealed
    rwa [← hevents] at hhash

theorem demo_reproduced {inputs : DemoInputs} {anchored : Anchored}
    (h : (Producer.demo inputs).anchors format sha256 str = .ok anchored) :
    anchored.Reproduced format sha256 str := by
  obtain ⟨result, hresult, h⟩ := bind_eq_ok.mp h
  obtain rfl := Except.ok.inj h
  obtain ⟨run, hrun, hresult⟩ := bind_eq_ok.mp hresult
  obtain ⟨scores, hscores, hresult⟩ := bind_eq_ok.mp hresult
  have hparts : result.run = run ∧ result.manifestHash = runManifestHash format sha256
      (rootedManifest format sha256 run (fixtureOrWindowId (inputs.ticks.map Prod.fst)) scores) := by
    cases hanchor : inputs.anchor with
    | none =>
      simp only [hanchor] at hresult
      obtain rfl := Except.ok.inj hresult
      exact ⟨rfl, rfl⟩
    | some anchor =>
      simp only [hanchor] at hresult
      obtain ⟨signature, -, hresult⟩ := bind_eq_ok.mp hresult
      obtain rfl := Except.ok.inj hresult
      exact ⟨rfl, rfl⟩
  obtain ⟨rfl, hhash⟩ := hparts
  rw [Anchored.Reproduced, hhash]
  exact verifyRun_sealed (runCompetition_ok hrun) hscores _

/-- A live window's manifest is hashed without its root forest. -/
theorem live_manifestHash {inputs : LiveInputs} {anchored : Anchored}
    (h : (Producer.live inputs).anchors format sha256 str = .ok anchored) : ∃ scores,
      scoreRun anchored.run = .ok scores ∧
      computeEvidenceHash format sha256 (anchored.run.runEvents.map RunEvent.toDict) =
        .ok anchored.run.evidenceHash ∧
      anchored.manifestHash = sha256 (manifestText format (manifestFromRun anchored.run
        anchored.identity (recomputeScoreRoot format sha256 scores))) := by
  obtain ⟨bundle, hbundle, h⟩ := bind_eq_ok.mp h
  obtain rfl := Except.ok.inj h
  obtain ⟨run, ops, effective, hparts⟩ := runLiveWindow_parts hbundle
  obtain ⟨hhash, -, hevents, -⟩ := result_parts hparts.result
  rw [← hevents] at hhash
  exact ⟨bundle.scores, hparts.scores, hhash, hparts.hash⟩

/-! ## Whose manifest is reproduced -/

/-- The digest takes a live run's manifest, and that manifest with its root forest, to one value,
different texts as they are. -/
def Collides (format : Json.FloatFormat PyFloat) (sha256 : List Char → String)
    (anchored : Anchored) : Prop :=
  ∃ scores, scoreRun anchored.run = .ok scores ∧
    manifestText format (manifestFromRun anchored.run anchored.identity
      (recomputeScoreRoot format sha256 scores)) ≠
        manifestText format (rootedManifest format sha256 anchored.run anchored.identity scores) ∧
    sha256 (manifestText format (manifestFromRun anchored.run anchored.identity
      (recomputeScoreRoot format sha256 scores))) =
        sha256 (manifestText format
          (rootedManifest format sha256 anchored.run anchored.identity scores))

theorem live_reproduced_iff {inputs : LiveInputs} {anchored : Anchored}
    (h : (Producer.live inputs).anchors format sha256 str = .ok anchored) :
    anchored.Reproduced format sha256 str ↔ Collides format sha256 anchored := by
  obtain ⟨scores, hscores, hevidence, hhash⟩ := live_manifestHash h
  obtain ⟨hverified, hreported⟩ :=
    @verifyRun_sealed format sha256 str _ _ hevidence hscores anchored.identity
  constructor
  · rintro ⟨-, hsame⟩
    rw [hreported, hhash] at hsame
    exact ⟨scores, hscores, manifestText_ne _ _ _, hsame.symm⟩
  · rintro ⟨scores', hscores', -, hsame⟩
    obtain rfl := Except.ok.inj (hscores.symm.trans hscores')
    exact ⟨hverified, by rw [hreported, hhash, hsame]; rfl⟩

/-- **The verifier reproduces** what the competition anchors, and nothing a live window does: its
manifest was hashed without the root forest. -/
theorem anchored_manifest_reproduced (producer : Producer) (anchored : Anchored)
    (h : producer.anchors format sha256 str = .ok anchored) :
    anchored.Reproduced format sha256 str ↔
      (∃ inputs, producer = .demo inputs) ∨ Collides format sha256 anchored := by
  cases producer with
  | demo inputs => exact ⟨fun _ => .inl ⟨inputs, rfl⟩, fun _ => demo_reproduced h⟩
  | live inputs =>
    rw [live_reproduced_iff h]
    constructor
    · exact .inr
    · rintro (⟨inputs', hdemo⟩ | hcollides)
      · exact nomatch hdemo
      · exact hcollides

section Witness

theorem pricedInputs_anchors : ∃ anchored, (Producer.live pricedInputs).anchors ratioFormat
    String.ofList (fun _ => "") = .ok anchored := by
  obtain ⟨bundle, row, hbundle, -⟩ := pricedWindow_seals fun _ => ""
  exact ⟨_, bind_eq_ok.mpr ⟨bundle, hbundle, rfl⟩⟩

theorem not_collides (anchored : Anchored) : ¬ Collides ratioFormat String.ofList anchored := by
  rintro ⟨scores, -, hne, hsame⟩
  exact hne (by simpa using congrArg String.toList hsame)

theorem anchored_manifest_reproduced_live : ∃ anchored,
    (Producer.live pricedInputs).anchors ratioFormat String.ofList (fun _ => "") = .ok anchored ∧
      (anchored.Reproduced ratioFormat String.ofList (fun _ => "") ↔
        (∃ inputs, Producer.live pricedInputs = .demo inputs) ∨
          Collides ratioFormat String.ofList anchored) := by
  obtain ⟨anchored, hanchored⟩ := pricedInputs_anchors
  exact ⟨anchored, hanchored, anchored_manifest_reproduced _ anchored hanchored⟩

/-- A live window is sealed and hashed, and the verifier reports another hash. -/
theorem live_manifest_differs :
    ¬ ∀ (format : Json.FloatFormat PyFloat) (sha256 : List Char → String) (str : Decoded → String)
      (producer : Producer) (anchored : Anchored),
      producer.anchors format sha256 str = .ok anchored → anchored.Reproduced format sha256 str := by
  intro hclaim
  obtain ⟨anchored, hanchored⟩ := pricedInputs_anchors
  have hreproduced := hclaim ratioFormat String.ofList (fun _ => "") _ anchored hanchored
  exact not_collides anchored ((live_reproduced_iff hanchored).mp hreproduced)

end Witness

end Veridex.Verifier
