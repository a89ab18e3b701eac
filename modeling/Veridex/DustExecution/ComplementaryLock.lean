import Veridex.DustExecution.Contracts
import Veridex.DustExecution.NonCrossing
import Veridex.Lib.PairedWalk

/-!
# The pinned fee snapshot (`dust_execution/feesnapshot.py`)

The fee a canonical rung carries: `takerFee` is `round5(feeRate * shares * p * (1 - p))`, and a
maker pays nothing on a taker-only market. The rate is one `pin_fee_snapshot` would pin (finite
and non-negative), so `round5` has no non-finite fee to refuse. `snapshot_hash` is left out:
nothing modelled compares it.

`takerFee_symm` is why a normalized leg keeps the fee of the raw one, and `takerFee_nonneg` why a
rung never carries a negative fee.
-/

namespace Veridex.DustExecution

open Veridex.Py

/-- `round5`: a raw magnitude under the venue's smallest fee is no fee, any other is rounded to
five places. -/
def round5 (x : ℚ) : ℚ := if |x| < 1 / 100000 then 0 else pyRoundTo 5 x

/-- `FeeSnapshot`. -/
structure FeeSnapshot where
  conditionId : String
  feeRate : ℚ
  feeRate_nonneg : 0 ≤ feeRate
  feeExponent : ℤ
  takerOnly : Bool

namespace FeeSnapshot

/-- `taker_fee`. -/
def takerFee (snapshot : FeeSnapshot) (shares price : ℚ) : Except PyExc ℚ := do
  let p ← rejectPriceOutOfUnitInterval price
  return round5 (snapshot.feeRate * shares * p * (1 - p))

/-- `maker_fee`. -/
def makerFee (snapshot : FeeSnapshot) (shares price : ℚ) : Except PyExc ℚ :=
  if snapshot.takerOnly then .ok 0 else snapshot.takerFee shares price

theorem takerFee_ok {snapshot : FeeSnapshot} {shares price fee : ℚ} :
    snapshot.takerFee shares price = .ok fee ↔ (0 ≤ price ∧ price ≤ 1) ∧
      fee = round5 (snapshot.feeRate * shares * price * (1 - price)) := by
  unfold takerFee rejectPriceOutOfUnitInterval
  by_cases h : 0 ≤ price ∧ price ≤ 1
  · simp [h, bind, Except.bind, pure, Except.pure, eq_comm]
  · simp only [h, if_false, bind, Except.bind, false_and]
    simp

/-- The fee of a price and of its complement are one. -/
theorem takerFee_symm (snapshot : FeeSnapshot) (shares price : ℚ) :
    snapshot.takerFee shares (1 - price) = snapshot.takerFee shares price := by
  have hbounds : (0 ≤ 1 - price ∧ 1 - price ≤ 1) ↔ (0 ≤ price ∧ price ≤ 1) := by
    constructor <;> rintro ⟨h₁, h₂⟩ <;> constructor <;> linarith
  have hraw : snapshot.feeRate * shares * (1 - price) * (1 - (1 - price)) =
      snapshot.feeRate * shares * price * (1 - price) := by ring
  unfold takerFee rejectPriceOutOfUnitInterval
  simp only [hbounds]
  split
  · simp only [bind, Except.bind, pure, Except.pure, hraw]
  · rfl

theorem round5_nonneg {x : ℚ} (h : 0 ≤ x) : 0 ≤ round5 x := by
  unfold round5
  split
  · exact le_rfl
  · exact pyRoundTo_nonneg h

theorem takerFee_nonneg {snapshot : FeeSnapshot} {shares price fee : ℚ} (hs : 0 ≤ shares)
    (h : snapshot.takerFee shares price = .ok fee) : 0 ≤ fee := by
  obtain ⟨⟨h₀, h₁⟩, rfl⟩ := takerFee_ok.mp h
  have hrate : 0 ≤ snapshot.feeRate * shares := mul_nonneg snapshot.feeRate_nonneg hs
  exact round5_nonneg (mul_nonneg (mul_nonneg hrate h₀) (by linarith))

theorem makerFee_nonneg {snapshot : FeeSnapshot} {shares price fee : ℚ} (hs : 0 ≤ shares)
    (h : snapshot.makerFee shares price = .ok fee) : 0 ≤ fee := by
  unfold makerFee at h
  split at h
  · simp_all
  · exact takerFee_nonneg hs h

end FeeSnapshot

end Veridex.DustExecution

/-!
## The complementary lock check (`dust_execution/noncrossing.py`, lines 273-510)

`complementaryLockCheck` takes a YES and a NO ladder of canonical BUY rungs, validates every rung
and walks the positive-size rungs of the two ladders dearest price first. The walk is
`Veridex.Lib.PairedWalk.walk`; its test is that the slice costs a dollar, fees included.

A rung that has passed `_validate_lock_leg` is a `LockRung`: the checks are its fields, and
`validateLockLeg_ok` says that the legs the check accepts are exactly the rungs' own.

Results: `complementaryLockCheck_eq`, `lock_check_sound_iff`, and `hidden_lock_admitted`: a taker rung one
tick cheaper than a maker rung hides a lock.
-/

namespace Veridex.DustExecution

open Veridex.Py Veridex.Lib.PairedWalk

/-- `CanonicalOutcome`. -/
inductive CanonicalOutcome where
  | yes
  | no
  deriving DecidableEq, Repr

/-- `LegRole`. -/
inductive LegRole where
  | maker
  | taker
  deriving DecidableEq, Repr

/-- `CanonicalLeg`: a canonical BUY rung as it is handed to the check. -/
structure CanonicalLeg where
  outcome : CanonicalOutcome
  price : PyFloat
  size : PyFloat
  role : LegRole
  fee : Option PyFloat := none
  deriving DecidableEq

/-- `LockVerdict`. -/
inductive LockVerdict where
  | admitted
  | rejected
  deriving DecidableEq, Repr

/-- A rung that has passed `_validate_lock_leg`. The walk reads its price, size and fee. -/
structure LockRung where
  role : LegRole
  price : ℚ
  size : ℚ
  fee : ℚ
  price_nonneg : 0 ≤ price
  price_le_one : price ≤ 1
  size_nonneg : 0 ≤ size
  fee_nonneg : 0 ≤ fee
  deriving DecidableEq

/-- `_validate_lock_leg`. -/
def validateLockLeg (leg : CanonicalLeg) (expected : CanonicalOutcome) :
    Except PyExc LockRung :=
  if leg.outcome ≠ expected then
    .error ⟨.failClosed, "rung outcome does not match its ladder (fail-closed)"⟩
  else match leg.fee with
    | some (.fin fee) =>
      if hfee : 0 ≤ fee then
        match leg.price with
        | .fin price =>
          if hprice : 0 ≤ price ∧ price ≤ 1 then
            match leg.size with
            | .fin size =>
              if hsize : 0 ≤ size then
                .ok ⟨leg.role, price, size, fee, hprice.1, hprice.2, hsize, hfee⟩
              else .error badSize
            | _ => .error badSize
          else .error badPrice
        | _ => .error badPrice
      else .error badFee
    | _ => .error badFee
where
  badFee : PyExc := ⟨.failClosed,
    "rung fee is unknown/invalid; refusing to admit an unknown fee (fail-closed)"⟩
  badPrice : PyExc := ⟨.failClosed, "rung price is outside the unit interval (fail-closed)"⟩
  badSize : PyExc := ⟨.failClosed, "rung size is negative or non-finite (fail-closed)"⟩

/-- The test of a slice: a share of each costs a dollar, within the tick tolerance. -/
def Locks (y n : LockRung) : Prop := 1 - tickAtol ≤ y.price + n.price + y.fee + n.fee

instance (y n : LockRung) : Decidable (Locks y n) := inferInstanceAs (Decidable (_ ≤ _))

/-- `sorted((r for r in rungs if r[1] > 0.0), key=price, reverse=True)`, a stable sort. -/
def dearestFirst (rungs : List LockRung) : List LockRung :=
  (rungs.filter fun r => 0 < r.size).mergeSort fun a b => b.price ≤ a.price

/-- The rungs with the sizes the walk consumes. -/
def segments (rungs : List LockRung) : List (LockRung × ℚ) := rungs.map fun r => (r, r.size)

/-- `complementary_lock_check`. -/
def complementaryLockCheck (yesLadder noLadder : List CanonicalLeg) : Except PyExc LockVerdict := do
  let yesRungs ← yesLadder.mapM (validateLockLeg · .yes)
  let noRungs ← noLadder.mapM (validateLockLeg · .no)
  if walk (fun y n => Locks y n) (segments (dearestFirst yesRungs))
      (segments (dearestFirst noRungs)) then
    return .rejected
  else return .admitted

/-! ### Valid ladders -/

/-- The leg of a rung. -/
def legOf (outcome : CanonicalOutcome) (r : LockRung) : CanonicalLeg :=
  ⟨outcome, .fin r.price, .fin r.size, r.role, some (.fin r.fee)⟩

/-- **The legs the check accepts** are the legs of the rungs. -/
theorem validateLockLeg_ok {leg : CanonicalLeg} {expected : CanonicalOutcome} {r : LockRung} :
    validateLockLeg leg expected = .ok r ↔ leg = legOf expected r := by
  constructor
  · intro h
    unfold validateLockLeg at h
    split at h
    · cases h
    · rename_i houtcome
      split at h
      · rename_i fee hfee
        split at h
        · split at h
          · rename_i price hprice
            split at h
            · split at h
              · rename_i size hsize
                split at h
                · obtain rfl := Except.ok.inj h
                  cases leg
                  simp_all [legOf]
                · cases h
              · cases h
            · cases h
          · cases h
        · cases h
      · cases h
  · rintro rfl
    simp [validateLockLeg, legOf, r.fee_nonneg, r.price_nonneg, r.price_le_one, r.size_nonneg]

theorem mapM_validateLockLeg (outcome : CanonicalOutcome) (rungs : List LockRung) :
    (rungs.map (legOf outcome)).mapM (validateLockLeg · outcome) = .ok rungs := by
  induction rungs with
  | nil => rfl
  | cons r rungs ih =>
    rw [List.map_cons, List.mapM_cons, validateLockLeg_ok.mpr rfl, ih]
    rfl

theorem positive_segments_dearestFirst (rungs : List LockRung) :
    Positive (segments (dearestFirst rungs)) := by
  intro x hx
  obtain ⟨r, hr, rfl⟩ := List.mem_map.mp hx
  have hr' := (List.mergeSort_perm _ _).mem_iff.mp hr
  simpa using (List.mem_filter.mp hr').2

/-- A locking pair overlaps, the rungs of each list laid end to end in the order given. -/
def LockOverlap (ys ns : List LockRung) : Prop :=
  Overlapping (fun y n => decide (Locks y n)) 0 (segments ys) (segments ns)

/-- **The verdict on valid ladders.** -/
theorem complementaryLockCheck_eq (ys ns : List LockRung) :
    (LockOverlap (dearestFirst ys) (dearestFirst ns) ∧
        complementaryLockCheck (ys.map (legOf .yes)) (ns.map (legOf .no)) = .ok .rejected) ∨
      (¬ LockOverlap (dearestFirst ys) (dearestFirst ns) ∧
        complementaryLockCheck (ys.map (legOf .yes)) (ns.map (legOf .no)) = .ok .admitted) := by
  have hwalk := walk_eq_true_iff (fun y n => decide (Locks y n)) 0 _ _
    (positive_segments_dearestFirst ys) (positive_segments_dearestFirst ns)
  unfold complementaryLockCheck
  rw [mapM_validateLockLeg, mapM_validateLockLeg]
  by_cases h : LockOverlap (dearestFirst ys) (dearestFirst ns)
  · exact .inl ⟨h, by simp [bind, Except.bind, pure, Except.pure, hwalk.mpr h]⟩
  · have hfalse := Bool.eq_false_iff.mpr fun hw => h (hwalk.mp hw)
    exact .inr ⟨h, by simp [bind, Except.bind, pure, Except.pure, hfalse]⟩

/-! ### Soundness and the order of the ladders -/

/-- Some positive-size rung of each ladder lock. -/
def HasLock (ys ns : List LockRung) : Prop :=
  ∃ y ∈ ys, ∃ n ∈ ns, 0 < y.size ∧ 0 < n.size ∧ Locks y n

/-- `A` is the positive-size rungs of a ladder, dearest first, ties in some order. -/
def DearestArrangement (rungs A : List LockRung) : Prop :=
  A.Perm (rungs.filter fun r => 0 < r.size) ∧ A.Pairwise fun a b => b.price ≤ a.price

theorem dearestFirst_arrangement (rungs : List LockRung) :
    DearestArrangement rungs (dearestFirst rungs) := by
  refine ⟨List.mergeSort_perm _ _, ?_⟩
  have htrans : ∀ a b c : LockRung, decide (b.price ≤ a.price) = true →
      decide (c.price ≤ b.price) = true → decide (c.price ≤ a.price) = true := by
    intro a b c hab hbc
    rw [decide_eq_true_eq] at hab hbc ⊢
    exact hbc.trans hab
  have htotal : ∀ a b : LockRung,
      (decide (b.price ≤ a.price) || decide (a.price ≤ b.price)) = true := by
    intro a b
    simpa using le_total b.price a.price
  have hsorted := List.pairwise_mergeSort htrans htotal (rungs.filter fun r => 0 < r.size)
  exact hsorted.imp fun h => by simpa using h

theorem DearestArrangement.of_perm {rungs rungs' A : List LockRung}
    (h : DearestArrangement rungs' A) (hp : rungs'.Perm rungs) : DearestArrangement rungs A :=
  ⟨h.1.trans (hp.filter _), h.2⟩

/-- Every arrangement is the walk's for some permutation of the ladder. -/
theorem exists_perm_dearestFirst {rungs A : List LockRung} (h : DearestArrangement rungs A) :
    ∃ rungs' : List LockRung, rungs'.Perm rungs ∧ dearestFirst rungs' = A := by
  have hpos : ∀ r ∈ A, 0 < r.size := fun r hr => by
    simpa using (List.mem_filter.mp (h.1.mem_iff.mp hr)).2
  refine ⟨A ++ rungs.filter fun r => !decide (0 < r.size), ?_, ?_⟩
  · exact (h.1.append_right _).trans (List.filter_append_perm (fun r => decide (0 < r.size)) rungs)
  · have hA : A.filter (fun r => 0 < r.size) = A :=
      List.filter_eq_self.mpr fun r hr => by simpa using hpos r hr
    have hrest : (rungs.filter fun r => !decide (0 < r.size)).filter (fun r => 0 < r.size) = [] :=
      List.filter_eq_nil_iff.mpr fun r hr => by simpa using (List.mem_filter.mp hr).2
    rw [dearestFirst, List.filter_append, hA, hrest, List.append_nil]
    exact List.mergeSort_of_pairwise (h.2.imp fun hle => by simpa using hle)

/-- An overlap of arrangements is a lock of the ladders. -/
theorem HasLock.of_overlap {ys ns A B : List LockRung} (hA : DearestArrangement ys A)
    (hB : DearestArrangement ns B) (h : LockOverlap A B) : HasLock ys ns := by
  obtain ⟨x, hx, z, hz, hlock⟩ := exists_of_overlapping h
  obtain ⟨y, hy, rfl⟩ := List.mem_map.mp hx
  obtain ⟨n, hn, rfl⟩ := List.mem_map.mp hz
  have hy' := List.mem_filter.mp (hA.1.mem_iff.mp hy)
  have hn' := List.mem_filter.mp (hB.1.mem_iff.mp hn)
  exact ⟨y, hy'.1, n, hn'.1, by simpa using hy'.2, by simpa using hn'.2, by simpa using hlock⟩

/-- **When the lock check is sound and order-independent**: no positive pair locks at all, or the
ladders cannot be arranged dearest first without a locking pair overlapping. -/
theorem lock_check_sound_iff (ys ns : List LockRung) :
    ((complementaryLockCheck (ys.map (legOf .yes)) (ns.map (legOf .no)) = .ok .admitted →
        ¬ ∃ y ∈ ys, ∃ n ∈ ns, 0 < y.size ∧ 0 < n.size ∧
          1 - tickAtol ≤ y.price + n.price + y.fee + n.fee) ∧
      ∀ ys' ns' : List LockRung, ys'.Perm ys → ns'.Perm ns →
        complementaryLockCheck (ys'.map (legOf .yes)) (ns'.map (legOf .no)) =
          complementaryLockCheck (ys.map (legOf .yes)) (ns.map (legOf .no))) ↔
    (¬ HasLock ys ns ∨ ∀ A B, DearestArrangement ys A → DearestArrangement ns B →
      LockOverlap A B) := by
  constructor
  · rintro ⟨hsound, hperm⟩
    by_cases hlock : HasLock ys ns
    · refine .inr fun A B hA hB => ?_
      obtain ⟨ys', hys, rfl⟩ := exists_perm_dearestFirst hA
      obtain ⟨ns', hns, rfl⟩ := exists_perm_dearestFirst hB
      rcases complementaryLockCheck_eq ys' ns' with ⟨h, -⟩ | ⟨-, hadm⟩
      · exact h
      · rw [hperm ys' ns' hys hns] at hadm
        exact absurd hlock (hsound hadm)
    · exact .inl hlock
  · rintro (hnone | hall)
    · have hadm : ∀ ys' ns' : List LockRung, ys'.Perm ys → ns'.Perm ns →
          complementaryLockCheck (ys'.map (legOf .yes)) (ns'.map (legOf .no)) = .ok .admitted := by
        intro ys' ns' hys hns
        rcases complementaryLockCheck_eq ys' ns' with ⟨h, -⟩ | ⟨-, h⟩
        · exact absurd (HasLock.of_overlap ((dearestFirst_arrangement ys').of_perm hys)
            ((dearestFirst_arrangement ns').of_perm hns) h) hnone
        · exact h
      refine ⟨fun _ => hnone, fun ys' ns' hys hns => ?_⟩
      rw [hadm ys' ns' hys hns, hadm ys ns (List.Perm.refl _) (List.Perm.refl _)]
    · have hrej : ∀ ys' ns' : List LockRung, ys'.Perm ys → ns'.Perm ns →
          complementaryLockCheck (ys'.map (legOf .yes)) (ns'.map (legOf .no)) = .ok .rejected := by
        intro ys' ns' hys hns
        have h := hall _ _ ((dearestFirst_arrangement ys').of_perm hys)
          ((dearestFirst_arrangement ns').of_perm hns)
        rcases complementaryLockCheck_eq ys' ns' with ⟨-, hr⟩ | ⟨hno, -⟩
        · exact hr
        · exact absurd h hno
      have hself := hrej ys ns (List.Perm.refl _) (List.Perm.refl _)
      refine ⟨fun hadm => ?_, fun ys' ns' hys hns => by rw [hrej ys' ns' hys hns, hself]⟩
      rw [hself] at hadm
      cases hadm

/-- A market that charges takers a fifth of `p * (1 - p)`. -/
def fifthSnapshot : FeeSnapshot := ⟨"m", 1 / 5, by norm_num, 1, true⟩

def makerYes : LockRung :=
  ⟨.maker, 60 / 100, 1, 0, by norm_num, by norm_num, by norm_num, le_rfl⟩
def takerYes : LockRung :=
  ⟨.taker, 59 / 100, 1, 4838 / 100000, by norm_num, by norm_num, by norm_num, by norm_num⟩
def makerNo : LockRung :=
  ⟨.maker, 39 / 100, 1, 0, by norm_num, by norm_num, by norm_num, le_rfl⟩

/-- The dearest YES rung is a maker's and pays no fee; the taker rung a tick below it costs more
and locks, but the walk never pairs it. -/
theorem hidden_lock_admitted :
    fifthSnapshot.makerFee 1 makerYes.price = .ok makerYes.fee ∧
      fifthSnapshot.takerFee 1 takerYes.price = .ok takerYes.fee ∧
      fifthSnapshot.makerFee 1 makerNo.price = .ok makerNo.fee ∧
      complementaryLockCheck ([makerYes, takerYes].map (legOf .yes)) ([makerNo].map (legOf .no)) =
        .ok .admitted ∧
      (0 < takerYes.size ∧ 0 < makerNo.size ∧
        1 - tickAtol ≤ takerYes.price + makerNo.price + takerYes.fee + makerNo.fee) := by
  refine ⟨by decide +kernel, by decide +kernel, by decide +kernel, ?_, by decide +kernel⟩
  have hyes : dearestFirst [makerYes, takerYes] = [makerYes, takerYes] := by
    rw [dearestFirst, List.filter_eq_self.mpr (by decide +kernel)]
    exact List.mergeSort_of_pairwise (by decide +kernel)
  have hno : dearestFirst [makerNo] = [makerNo] := by
    rw [dearestFirst, List.filter_eq_self.mpr (by decide +kernel)]
    exact List.mergeSort_of_pairwise (by decide +kernel)
  have hfront : ¬ Locks makerYes makerNo := by decide +kernel
  have hsize : makerYes.size = 1 ∧ takerYes.size = 1 ∧ makerNo.size = 1 := ⟨rfl, rfl, rfl⟩
  have hwalk : walk (fun y n => decide (Locks y n)) (segments [makerYes, takerYes])
      (segments [makerNo]) = false := by
    simp [segments, walk, hfront, hsize]
  unfold complementaryLockCheck
  rw [mapM_validateLockLeg, mapM_validateLockLeg]
  simp [bind, Except.bind, pure, Except.pure, hyes, hno, hwalk]

end Veridex.DustExecution
