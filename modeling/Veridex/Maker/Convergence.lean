import Veridex.Maker.Runner
import Veridex.Py.Statistics

/-!
# The convergence of a tape (`maker/basis.py`, `maker/diagnostic.py`, `maker/runner.py`, step 5)

The rows of the tape that carry a mid are one series, in the order of their times, whatever market each
is of. Its gaps lose their median, and what is left is asked how often it shrinks. Prices are exact.
-/

namespace Veridex.Maker

open Veridex.Py Veridex.Lib

/-- `BasisDecomposition`. -/
structure BasisDecomposition where
  basisBps : ℤ
  residualGapBps : List ℤ
  n : ℕ
  deriving DecidableEq, Repr

/-- What `decompose_gap` and the diagnostic raise. -/
inductive ConvergenceError where
  | markout (e : MarkoutError)
  | unequalLengths
  | empty
  deriving DecidableEq, Repr

/-- `for x in xs: assert_native_prob(x, name)`. -/
def assertNativeProbs (xs : List ℚ) (name : String) : Except ConvergenceError Unit :=
  match xs.find? fun x => ¬ (0 ≤ x ∧ x ≤ 1) with
  | some x => .error (.markout (.notNativeProb name x))
  | none => .ok ()

/-- `decompose_gap`. -/
def decomposeGap (txlineFv venueNative : List ℚ) : Except ConvergenceError BasisDecomposition :=
  if txlineFv.length ≠ venueNative.length then .error .unequalLengths
  else if txlineFv = [] then .error .empty
  else do
    assertNativeProbs txlineFv "txline_fv"
    assertNativeProbs venueNative "venue_native"
    let gaps := List.zipWith (fun fv native => (fv - native) * 10000) txlineFv venueNative
    let basisBps := pyRound (median gaps)
    return ⟨basisBps, gaps.map fun gap => pyRound gap - basisBps, txlineFv.length⟩

/-- The steps of a series: each value with the next one. -/
def steps : List ℤ → List (ℤ × ℤ)
  | a :: b :: rest => (a, b) :: steps (b :: rest)
  | _ => []

/-- The magnitude shrank. -/
def Shrank (step : ℤ × ℤ) : Prop := |step.2| < |step.1|

instance : DecidablePred Shrank := fun step => inferInstanceAs (Decidable (|step.2| < |step.1|))

/-- `reach_from_residual`. -/
def reachFromResidual (residualGapBps : List ℤ) : Option ℚ :=
  if residualGapBps.length < 2 then none
  else some ((steps residualGapBps).countP (Shrank ·) / (residualGapBps.length - 1 : ℕ))

/-- `ConvergenceReachReport`, without its note. -/
structure ConvergenceReachReport where
  basisBps : ℤ
  residualReachFraction : Option ℚ
  reachHorizonS : ℤ
  n : ℕ
  deriving DecidableEq, Repr

/-- `build_convergence_reach`. -/
def buildConvergenceReach (txlineFv venueNative : List ℚ) (reachHorizonS : ℤ) :
    Except ConvergenceError ConvergenceReachReport := do
  let decomposition ← decomposeGap txlineFv venueNative
  return ⟨decomposition.basisBps, reachFromResidual decomposition.residualGapBps, reachHorizonS,
    decomposition.n⟩

/-- `mid_rows`: the rows with a mid, in the order of their times. -/
def midRows (tape : List MakerRow) : List MakerRow :=
  (timed MakerRow.ts tape).filter fun row => row.mid.isSome

/-- The mid of a row that carries one. -/
def MakerRow.midValue (row : MakerRow) : ℚ := row.mid.getD 0

/-- The convergence that `_build_trade_aware_diagnostic` reports. -/
def convergence (tape : List MakerRow) (horizonsS : List ℤ) :
    Except ConvergenceError (Option ConvergenceReachReport) :=
  let rows := midRows tape
  if rows = [] then .ok none
  else some <$> buildConvergenceReach (rows.map MakerRow.fv) (rows.map MakerRow.midValue)
    (horizonsS.headD 60)

/-! ## What the series is -/

/-- The gap of a row. -/
def MakerRow.gap (row : MakerRow) : ℚ := (row.fv - row.midValue) * 10000

/-- The basis of a tape. -/
def basisOf (tape : List MakerRow) : ℤ := pyRound (median ((midRows tape).map MakerRow.gap))

/-- The residual of a row. -/
def residual (basis : ℤ) (row : MakerRow) : ℤ := pyRound row.gap - basis

/-- The rows with a mid carry native probabilities. -/
def NativeTape (tape : List MakerRow) : Prop :=
  ∀ row ∈ midRows tape, (0 ≤ row.fv ∧ row.fv ≤ 1) ∧ 0 ≤ row.midValue ∧ row.midValue ≤ 1

theorem assertNativeProbs_ok {xs : List ℚ} {name : String} :
    assertNativeProbs xs name = .ok () ↔ ∀ x ∈ xs, 0 ≤ x ∧ x ≤ 1 := by
  rw [assertNativeProbs]
  cases hfind : xs.find? fun x => ¬ (0 ≤ x ∧ x ≤ 1) with
  | some x =>
    have hx := List.find?_some hfind
    refine iff_of_false nofun fun h => ?_
    simp only [decide_eq_true_eq] at hx
    exact hx (h x (List.mem_of_find?_eq_some hfind))
  | none =>
    refine iff_of_true rfl fun x hx => ?_
    simpa using List.find?_eq_none.mp hfind x hx

/-- **What is reported** of a tape of native probabilities. -/
theorem convergence_ok {tape : List MakerRow} (horizonsS : List ℤ) (hne : midRows tape ≠ [])
    (hnative : NativeTape tape) : convergence tape horizonsS = .ok (some
      ⟨basisOf tape, reachFromResidual ((midRows tape).map (residual (basisOf tape))),
        horizonsS.headD 60, (midRows tape).length⟩) := by
  have hfv : assertNativeProbs ((midRows tape).map MakerRow.fv) "txline_fv" = .ok () :=
    assertNativeProbs_ok.mpr (List.forall_mem_map.mpr fun row hrow => (hnative row hrow).1)
  have hmid : assertNativeProbs ((midRows tape).map MakerRow.midValue) "venue_native" = .ok () :=
    assertNativeProbs_ok.mpr (List.forall_mem_map.mpr fun row hrow => (hnative row hrow).2)
  have hgaps : List.zipWith (fun fv native => (fv - native) * 10000)
      ((midRows tape).map MakerRow.fv) ((midRows tape).map MakerRow.midValue) =
      (midRows tape).map MakerRow.gap := by
    rw [List.zipWith_map, List.zipWith_self]
    rfl
  have hne' : (midRows tape).map MakerRow.fv ≠ [] := by simpa using hne
  simp only [convergence, if_neg hne, buildConvergenceReach, decomposeGap, List.length_map,
    ne_eq, not_true_eq_false, if_false, if_neg hne', hfv, hmid, hgaps, List.map_map]
  rfl

/-- A tape that is not native is refused. -/
theorem convergence_error {tape : List MakerRow} {horizonsS : List ℤ} (hnative : ¬ NativeTape tape)
    (report : Option ConvergenceReachReport) : convergence tape horizonsS ≠ .ok report := by
  intro h
  have hne : midRows tape ≠ [] := by
    rintro hnil
    exact hnative fun row hrow => absurd (hnil ▸ hrow) List.not_mem_nil
  rw [convergence, if_neg hne] at h
  simp only [buildConvergenceReach, decomposeGap, List.length_map, ne_eq, not_true_eq_false, if_false,
    List.map_eq_nil_iff, hne] at h
  refine hnative fun row hrow => ?_
  cases hfv : assertNativeProbs ((midRows tape).map MakerRow.fv) "txline_fv" with
  | error e => rw [hfv] at h; exact nomatch h
  | ok _ =>
    rw [hfv] at h
    cases hmid : assertNativeProbs ((midRows tape).map MakerRow.midValue) "venue_native" with
    | error e => rw [hmid] at h; exact nomatch h
    | ok _ =>
      exact ⟨assertNativeProbs_ok.mp hfv _ (List.mem_map_of_mem hrow),
        assertNativeProbs_ok.mp hmid _ (List.mem_map_of_mem hrow)⟩

end Veridex.Maker
