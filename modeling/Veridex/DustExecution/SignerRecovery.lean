import Veridex.DustExecution.KeccakSponge
import Veridex.DustExecution.OrderCommitment
import Veridex.Lib.Curve
import Veridex.Py.Statistics

/-!
# The curve of the signatures (`privy_control_plane.py`, lines 84-98)

The curve secp256k1 over its field, with the generator the source has. `nsmul_point` says that every
point of it is killed by the order the source has, which is prime: with it scalars are residues, and
dividing by one undoes multiplying by it.

The primes are shown by a root of each (`prime_of_certified`), down to two.
-/

namespace Veridex.DustExecution

open Veridex.Py Veridex.Lib Veridex.Lib.Curve

/-- `_SECP256K1_P`. -/
def secp256k1P : ℕ := 2 ^ 256 - 2 ^ 32 - 977

/-- `_SECP256K1_N`. -/
def secp256k1N : ℕ := 0xFFFFFFFFFFFFFFFFFFFFFFFFFFFFFFFEBAAEDCE6AF48A03BBFD25E8CD0364141

/-- `_SECP256K1_GX`. -/
def secp256k1Gx : ℕ := 0x79BE667EF9DCBBAC55A06295CE870B07029BFCDB2DCE28D959F2815B16F81798

/-- `_SECP256K1_GY`. -/
def secp256k1Gy : ℕ := 0x483ADA7726A3C4655DA4FBFC0E1108A8FD17B448A68554199C47D08FFB10D4B8

/-! ## The two primes -/

/-- The two primes and those that show them to be prime, each with a root and the factors of one less. -/
def primeRoots : List (ℕ × ℕ × List ℕ) := [
  (secp256k1P, 3,
    [2, 3, 7, 13441, 205115282021455665897114700593932402728804164701536103180137503955397371]),
  (secp256k1N, 7,
    [2, 2, 2, 2, 2, 2, 3, 149, 631, 107361793816595537, 174723607534414371449,
      341948486974166000522343609283189]),
  (205115282021455665897114700593932402728804164701536103180137503955397371, 10,
    [2, 3, 5, 29, 29, 31, 7723, 132896956044521568488119, 255515944373312847190720520512484175977]),
  (255515944373312847190720520512484175977, 3,
    [2, 2, 2, 7, 7, 11, 1627, 2657, 4423, 41201, 96557, 7240687, 107590001]),
  (341948486974166000522343609283189, 2, [2, 2, 3, 3, 3, 109, 29047611873442575647497758179]),
  (29047611873442575647497758179, 2, [2, 293, 305873, 545358713, 297159362677]),
  (132896956044521568488119, 6, [2, 3, 22149492674086928081353]),
  (22149492674086928081353, 5, [2, 2, 2, 3, 5323, 173378833005251801]),
  (174723607534414371449, 3, [2, 2, 2, 17, 59, 4051, 120233, 44706919]),
  (173378833005251801, 6, [2, 2, 2, 5, 5, 2621, 24809, 13331831]),
  (107361793816595537, 3, [2, 2, 2, 2, 16699, 85831, 4681609]),
  (297159362677, 2, [2, 2, 3, 3, 11, 461, 1627771]), (545358713, 5, [2, 2, 2, 41, 59, 28181]),
  (107590001, 3, [2, 2, 2, 2, 5, 5, 5, 5, 7, 29, 53]), (44706919, 6, [2, 3, 797, 9349]),
  (13331831, 13, [2, 5, 971, 1373]), (7240687, 3, [2, 3, 1206781]),
  (4681609, 23, [2, 2, 2, 3, 97, 2011]), (1627771, 3, [2, 3, 5, 29, 1871]),
  (1206781, 10, [2, 2, 3, 5, 20113]), (305873, 3, [2, 2, 2, 2, 7, 2731]),
  (120233, 3, [2, 2, 2, 7, 19, 113]), (96557, 2, [2, 2, 101, 239]), (85831, 3, [2, 3, 5, 2861]),
  (41201, 3, [2, 2, 2, 2, 5, 5, 103]), (28181, 2, [2, 2, 5, 1409]), (24809, 6, [2, 2, 2, 7, 443]),
  (20113, 10, [2, 2, 2, 2, 3, 419]), (16699, 3, [2, 3, 11, 11, 23]),
  (13441, 11, [2, 2, 2, 2, 2, 2, 2, 3, 5, 7]), (9349, 2, [2, 2, 3, 19, 41]),
  (7723, 3, [2, 3, 3, 3, 11, 13]), (5323, 5, [2, 3, 887]), (4423, 3, [2, 3, 11, 67]),
  (4051, 10, [2, 3, 3, 3, 3, 5, 5]), (2861, 2, [2, 2, 5, 11, 13]), (2731, 3, [2, 3, 5, 7, 13]),
  (2657, 3, [2, 2, 2, 2, 2, 83]), (2621, 2, [2, 2, 5, 131]), (2011, 3, [2, 3, 5, 67]),
  (1871, 14, [2, 5, 11, 17]), (1627, 3, [2, 3, 271]), (1409, 3, [2, 2, 2, 2, 2, 2, 2, 11]),
  (1373, 2, [2, 2, 7, 7, 7]), (971, 6, [2, 5, 97]), (887, 5, [2, 443]), (797, 2, [2, 2, 199]),
  (631, 3, [2, 3, 3, 5, 7]), (461, 2, [2, 2, 5, 23]), (443, 2, [2, 13, 17]), (419, 2, [2, 11, 19]),
  (293, 2, [2, 2, 73]), (271, 6, [2, 3, 3, 3, 5]), (239, 7, [2, 7, 17]), (199, 3, [2, 3, 3, 11]),
  (149, 2, [2, 2, 37]), (131, 2, [2, 5, 13]), (113, 3, [2, 2, 2, 2, 7]), (109, 6, [2, 2, 3, 3, 3]),
  (103, 5, [2, 3, 17]), (101, 2, [2, 2, 5, 5]), (97, 5, [2, 2, 2, 2, 2, 3]), (83, 2, [2, 41]),
  (73, 5, [2, 2, 2, 3, 3]), (67, 2, [2, 3, 11]), (59, 2, [2, 29]), (53, 2, [2, 2, 13]),
  (41, 6, [2, 2, 2, 5]), (37, 2, [2, 2, 3, 3]), (31, 3, [2, 3, 5]), (29, 2, [2, 2, 7]),
  (23, 5, [2, 11]), (19, 2, [2, 3, 3]), (17, 3, [2, 2, 2, 2]), (13, 2, [2, 2, 3]), (11, 2, [2, 5]),
  (7, 3, [2, 3]), (5, 2, [2, 2]), (3, 2, [2])]

theorem certified_primeRoots : PowMod.Certified primeRoots := by decide +kernel

/-- The field has a prime number of elements. -/
theorem prime_secp256k1P : Nat.Prime secp256k1P :=
  PowMod.prime_of_certified certified_primeRoots _ (List.mem_map_of_mem (List.mem_cons_self ..))

/-- The order is prime. -/
theorem prime_secp256k1N : Nat.Prime secp256k1N :=
  PowMod.prime_of_certified certified_primeRoots _
    (List.mem_map_of_mem (List.mem_cons_of_mem _ (List.mem_cons_self ..)))

instance : Fact secp256k1P.Prime := ⟨prime_secp256k1P⟩

instance : Fact secp256k1N.Prime := ⟨prime_secp256k1N⟩

/-! ## The points -/

/-- The field of the curve. -/
abbrev Field256 := ZMod secp256k1P

/-- The points of `y² = x³ + 7`. -/
abbrev SecpPoint := (shortCurve (7 : Field256)).Point

/-- A number below the prime is not zero in the field. -/
theorem natCast_ne_zero {n : ℕ} (hpos : 0 < n) (hlt : n < secp256k1P) : (n : Field256) ≠ 0 := by
  rw [Ne, ZMod.natCast_eq_zero_iff]
  exact Nat.not_dvd_of_pos_of_lt hpos hlt

theorem smooth_secp256k1 : (432 * 7 ^ 2 : Field256) ≠ 0 := by
  have hcast : (432 * 7 ^ 2 : Field256) = ((21168 : ℕ) : Field256) := by norm_num
  rw [hcast]
  exact natCast_ne_zero (by decide) (by decide)

/-- The points are the pairs on the curve. -/
theorem nonsingular_secp256k1 {x y : Field256} :
    (shortCurve (7 : Field256)).Nonsingular x y ↔ y ^ 2 = x ^ 3 + 7 :=
  nonsingular_shortCurve smooth_secp256k1

theorem generator_on_curve : (secp256k1Gy : Field256) ^ 2 = (secp256k1Gx : Field256) ^ 3 + 7 := by
  have hnat : secp256k1Gy ^ 2 % secp256k1P = (secp256k1Gx ^ 3 + 7) % secp256k1P := by decide +kernel
  exact_mod_cast (ZMod.natCast_eq_natCast_iff' _ _ _).mpr hnat

/-- `_G`. -/
def generator : SecpPoint :=
  .some (secp256k1Gx : Field256) secp256k1Gy (nonsingular_secp256k1.mpr generator_on_curve)

theorem affine_generator :
    affine generator = some ((secp256k1Gx : Field256), (secp256k1Gy : Field256)) := rfl

theorem two_ne_zero_secp256k1 : (2 : Field256) ≠ 0 :=
  natCast_ne_zero (n := 2) (by decide) (by decide)

theorem seven_ne_zero_secp256k1 : (7 : Field256) ≠ 0 :=
  natCast_ne_zero (n := 7) (by decide) (by decide)

/-- Minus seven is no cube, so no point has a zero `y`. -/
theorem cube_ne (x : Field256) : x ^ 3 ≠ -7 := by
  intro hx
  have hne : x ≠ 0 := by
    rintro rfl
    rw [zero_pow three_ne_zero, eq_comm, neg_eq_zero] at hx
    exact seven_ne_zero_secp256k1 hx
  have hone := ZMod.pow_card_sub_one_eq_one hne
  have hsplit : secp256k1P - 1 = 3 * ((secp256k1P - 1) / 3) := by decide
  rw [hsplit, pow_mul, hx] at hone
  have hcast : (-7 : Field256) = ((secp256k1P - 7 : ℕ) : Field256) := by
    rw [Nat.cast_sub (by decide), ZMod.natCast_self, zero_sub, Nat.cast_ofNat]
  rw [hcast, ← PowMod.powMod_eq_one (by decide)] at hone
  revert hone
  decide +kernel

/-- Half of the elements that are not zero are odd. -/
def isOdd (y : Field256) : Bool := y.val % 2 = 1

theorem isOdd_neg {y : Field256} (hy : y ≠ 0) : isOdd (-y) ≠ isOdd y := by
  have hval : (-y).val = secp256k1P - y.val := by rw [ZMod.neg_val, if_neg hy]
  have hlt : y.val < secp256k1P := ZMod.val_lt y
  have hodd : secp256k1P % 2 = 1 := by decide
  rw [isOdd, isOdd, hval]
  intro h
  rw [decide_eq_decide] at h
  omega

/-! ## The order -/

/-- A multiple one short of the order is opposite to the generator. -/
theorem generator_multiple : ((secp256k1N - 1) • generator : SecpPoint) = -generator :=
  nsmul_eq_neg affine_generator (by decide) (by decide)
    (by decide +kernel : IsOpposite secp256k1P secp256k1Gx secp256k1Gy
      (jacMul secp256k1P secp256k1Gx secp256k1Gy 255 (secp256k1N - 1)))

theorem generator_ne_zero : generator ≠ 0 := by
  intro h
  have haffine := affine_generator
  rw [h, affine_zero] at haffine
  exact nomatch haffine

theorem nsmul_generator : (secp256k1N • generator : SecpPoint) = 0 := by
  have hsucc : secp256k1N = (secp256k1N - 1) + 1 := by decide
  rw [hsucc, succ_nsmul, generator_multiple, neg_add_cancel]

instance : Finite SecpPoint := finite_points

/-- **Every point** is killed by the order. -/
theorem nsmul_point (P : SecpPoint) : secp256k1N • P = 0 := by
  refine nsmul_eq_zero prime_secp256k1N nsmul_generator generator_ne_zero ?_ ?_ P
  · have hcard : Nat.card SecpPoint ≤ 2 * Nat.card Field256 + 1 := card_le fun y hy => isOdd_neg hy
    rw [Nat.card_zmod] at hcard
    exact hcard.trans_lt (by decide)
  · intro P hP
    exact eq_zero_of_add_self two_ne_zero_secp256k1 cube_ne hP

/-- Scalars are residues of the order. -/
noncomputable instance : Module (ZMod secp256k1N) SecpPoint := AddCommGroup.zmodModule nsmul_point

/-!
## The signer of a signature (`privy_control_plane.py`, lines 84-174, 356-430, 517-556)

`recoverSignerAddress` computes on pairs of integers, with infinity for none: it takes the point with the
signature's x and parity, and from it the key. `coords` are the pairs of the points of the curve, and on
them `pointAdd` and `pointMul` are the sum and the multiples of the group (`pointAdd_coords`,
`pointMul_coords`), so that the key is the one that `RecoversKey` names. The wallet's client is a
parameter, and may answer anything or raise.
-/

/-! ### Arithmetic on points -/

/-- `_Point`: coordinates, or none at infinity. -/
abbrev AffinePoint := Option (ℤ × ℤ)

/-- `_G`. -/
def generatorPoint : AffinePoint := some (secp256k1Gx, secp256k1Gy)

/-- `pow(b, e, m)`. -/
def modPow (b : ℤ) (e m : ℕ) : ℤ := PowMod.powMod (b % m).toNat e m

/-- `_inv_mod`. -/
def invMod (a : ℤ) (m : ℕ) : ℤ := modPow (a % m) (m - 2) m

/-- `lam`, the slope of the chord, or of the tangent of the one point. -/
def slopeOf (x₁ y₁ x₂ y₂ : ℤ) : ℤ :=
  if x₁ = x₂ ∧ y₁ = y₂ then 3 * x₁ * x₁ * invMod (2 * y₁) secp256k1P % secp256k1P
  else (y₂ - y₁) * invMod ((x₂ - x₁) % secp256k1P) secp256k1P % secp256k1P

/-- `_point_add`. -/
def pointAdd : AffinePoint → AffinePoint → AffinePoint
  | none, p₂ => p₂
  | p₁, none => p₁
  | some (x₁, y₁), some (x₂, y₂) =>
    if x₁ = x₂ ∧ (y₁ + y₂) % secp256k1P = 0 then none
    else
      let lam := slopeOf x₁ y₁ x₂ y₂
      let x₃ := (lam * lam - x₁ - x₂) % secp256k1P
      let y₃ := (lam * (x₁ - x₃) - y₁) % secp256k1P
      some (x₃, y₃)

/-- The loop of `_point_mul`. -/
def pointMulLoop (k : ℕ) (result p : AffinePoint) : AffinePoint :=
  if k = 0 then result
  else pointMulLoop (k / 2) (if k % 2 = 1 then pointAdd result p else result) (pointAdd p p)
termination_by k
decreasing_by omega

/-- `_point_mul`. -/
def pointMul (k : ℤ) (p : AffinePoint) : AffinePoint := pointMulLoop (k % secp256k1N).toNat none p

/-- `_address_from_point`. -/
def addressFromPoint : AffinePoint → Except PyExc String
  | none => .error ⟨.failClosed, "recovered a point at infinity — invalid signature"⟩
  | some (x, y) => do
    let raw := (← toBytes32 x) ++ (← toBytes32 y)
    return "0x" ++ hex (lastN (keccak256 raw) 20)

/-- The point of a signature: the one on the curve with this x, and the parity of the recovery id. -/
def pointOfX (x : ℤ) (recId : ℕ) : Except PyExc AffinePoint := do
  let ySq := (modPow x 3 secp256k1P + 7) % secp256k1P
  let y := modPow ySq ((secp256k1P + 1) / 4) secp256k1P
  failClosedUnless ((y * y - ySq) % secp256k1P = 0) "no square root — point not on curve"
  let y := if y % 2 ≠ recId % 2 then secp256k1P - y else y
  return some (x, y)

/-- `r`. -/
def sigR (signature : List UInt8) : ℕ := fromBytes (signature.take 32)

/-- `s`. -/
def sigS (signature : List UInt8) : ℕ := fromBytes ((signature.drop 32).take 32)

/-- `v`. -/
def sigV (signature : List UInt8) : ℕ := (signature.getD 64 0).toNat

/-- `rec_id`. -/
def recoveryId (v : ℕ) : ℕ := if 27 ≤ v then v - 27 else v

/-- `x`. -/
def sigX (signature : List UInt8) : ℕ :=
  sigR signature + recoveryId (sigV signature) / 2 * secp256k1N

/-- `recover_signer_address`. -/
def recoverSignerAddress (digest signature : List UInt8) : Except PyExc String := do
  failClosedUnless (digest.length = 32) ("digest must be 32 bytes, got " ++ toString digest.length)
  failClosedUnless (signature.length = 65)
    ("signature must be 65 bytes (r||s||v), got " ++ toString signature.length)
  let z := fromBytes digest
  let r := sigR signature
  let s := sigS signature
  let recId := recoveryId (sigV signature)
  failClosedUnless (recId ∈ [0, 1, 2, 3]) ("invalid recovery id " ++ toString recId)
  failClosedUnless ((1 ≤ r ∧ r < secp256k1N) ∧ 1 ≤ s ∧ s < secp256k1N) "signature r/s out of range"
  let x := sigX signature
  failClosedUnless (x < secp256k1P) "signature x-coordinate out of field"
  let bigR ← pointOfX x recId
  let rInv := invMod r secp256k1N
  let q := pointMul rInv
    (pointAdd (pointMul s bigR) (pointMul (-(z : ℤ) % secp256k1N) generatorPoint))
  addressFromPoint q

/-! ### The group -/

/-- The pair of a point. -/
def coords (P : SecpPoint) : AffinePoint := (affine P).map fun (x, y) => ((x.val : ℤ), (y.val : ℤ))

section Field

variable {m : ℕ}

theorem val_eq_emod [NeZero m] {a : ℤ} {x : ZMod m} (h : (a : ZMod m) = x) : a % m = (x.val : ℤ) := by
  rw [← h, ZMod.val_intCast]

/-- A power is the power of the residue. -/
theorem modPow_eq [NeZero m] (b : ℤ) (e : ℕ) : modPow b e m = (((b : ZMod m) ^ e).val : ℤ) := by
  have hm : (0 : ℤ) < m := Int.natCast_pos.mpr (NeZero.pos m)
  have hb : ((b % m).toNat : ZMod m) = b := by
    rw [← Int.cast_natCast, Int.toNat_of_nonneg (Int.emod_nonneg b hm.ne'), ZMod.intCast_mod]
  have hcast : (PowMod.powMod (b % m).toNat e m : ZMod m) = (b : ZMod m) ^ e := by
    rw [PowMod.cast_powMod, hb]
  rw [modPow, ← hcast, ZMod.val_natCast, Nat.mod_eq_of_lt (PowMod.powMod_lt (NeZero.pos m))]

/-- Fermat's inverse is the inverse. -/
theorem invMod_eq [Fact m.Prime] (h : 2 < m) (a : ℤ) : invMod a m = (((a : ZMod m)⁻¹).val : ℤ) := by
  rw [invMod, modPow_eq, ZMod.intCast_mod]
  congr 2
  by_cases ha : (a : ZMod m) = 0
  · rw [ha, inv_zero, zero_pow (by omega)]
  · refine eq_inv_of_mul_eq_one_left ?_
    rw [← pow_succ, show m - 2 + 1 = m - 1 by omega, ZMod.pow_card_sub_one_eq_one ha]

end Field

theorem coords_zero : coords 0 = none := rfl

theorem coords_some {P : SecpPoint} {x y : Field256} (h : affine P = some (x, y)) :
    coords P = some ((x.val : ℤ), (y.val : ℤ)) := by
  rw [coords, h, Option.map_some]

theorem coords_generator : coords generator = generatorPoint := by
  rw [coords_some affine_generator, ZMod.val_natCast, ZMod.val_natCast, Nat.mod_eq_of_lt (by decide),
    Nat.mod_eq_of_lt (by decide)]
  rfl

theorem natCast_val_inj {x y : Field256} : (x.val : ℤ) = y.val ↔ x = y := by
  rw [Nat.cast_inj]
  exact (ZMod.val_injective secp256k1P).eq_iff

theorem slopeOf_val (x₁ y₁ x₂ y₂ : Field256) :
    slopeOf x₁.val y₁.val x₂.val y₂.val = ((lineSlope x₁ y₁ x₂ y₂).val : ℤ) := by
  simp only [slopeOf, natCast_val_inj, lineSlope]
  split
  · refine val_eq_emod ?_
    rw [invMod_eq (by decide)]
    push_cast [ZMod.natCast_zmod_val]
    rfl
  · refine val_eq_emod ?_
    rw [invMod_eq (by decide), ZMod.intCast_mod]
    push_cast [ZMod.natCast_zmod_val]
    rfl

/-- **Chord and tangent over integers** compute the sum of two points. -/
theorem pointAdd_coords (P Q : SecpPoint) : pointAdd (coords P) (coords Q) = coords (P + Q) := by
  have hsum : coords (P + Q) = (affineAdd (affine P) (affine Q)).map
      fun (x, y) => ((x.val : ℤ), (y.val : ℤ)) := by rw [coords, affine_add]
  rw [hsum]
  cases hP : affine P with
  | none => rw [coords, hP, Option.map_none, pointAdd, coords, affineAdd]
  | some xy₁ =>
    obtain ⟨x₁, y₁⟩ := xy₁
    rw [coords_some hP]
    cases hQ : affine Q with
    | none =>
      rw [coords, hQ, Option.map_none]
      rfl
    | some xy₂ =>
      obtain ⟨x₂, y₂⟩ := xy₂
      have hopposite : ((y₁.val : ℤ) + y₂.val) % secp256k1P = 0 ↔ y₁ + y₂ = 0 := by
        rw [val_eq_emod (x := y₁ + y₂) (by push_cast [ZMod.natCast_zmod_val]; rfl), Nat.cast_eq_zero,
          ZMod.val_eq_zero]
      rw [coords_some hQ, pointAdd, affineAdd]
      simp only [slopeOf_val, hopposite, natCast_val_inj]
      split
      · rfl
      · rw [Option.map_some, onLine]
        have hx : ((lineSlope x₁ y₁ x₂ y₂).val * (lineSlope x₁ y₁ x₂ y₂).val - (x₁.val : ℤ) - x₂.val) %
            secp256k1P = ((lineSlope x₁ y₁ x₂ y₂ * lineSlope x₁ y₁ x₂ y₂ - x₁ - x₂).val : ℤ) := by
          refine val_eq_emod ?_
          push_cast [ZMod.natCast_zmod_val]
          rfl
        rw [hx]
        congr 2
        refine val_eq_emod ?_
        push_cast [ZMod.natCast_zmod_val]
        rfl

/-- What the loop adds up. -/
theorem pointMulLoop_coords (k : ℕ) (A B : SecpPoint) :
    pointMulLoop k (coords A) (coords B) = coords (A + k • B) := by
  induction k using Nat.strong_induction_on generalizing A B with
  | _ k ih =>
    rw [pointMulLoop]
    by_cases hk : k = 0
    · rw [if_pos hk, hk, zero_nsmul, add_zero]
    · have hhalf : k / 2 < k := by omega
      rw [if_neg hk, pointAdd_coords B B]
      by_cases hodd : k % 2 = 1
      · have hsplit : k • B = B + (k / 2) • (B + B) := by
          rw [nsmul_add, ← add_nsmul, ← succ_nsmul']
          congr 1
          omega
        rw [if_pos hodd, pointAdd_coords, ih _ hhalf, hsplit, add_assoc]
      · have hsplit : k • B = (k / 2) • (B + B) := by
          rw [nsmul_add, ← add_nsmul]
          congr 1
          omega
        rw [if_neg hodd, ih _ hhalf, hsplit]

/-- **Double and add** computes the multiples of a point, by the residue of the scalar. -/
theorem pointMul_coords (k : ℤ) (P : SecpPoint) :
    pointMul k (coords P) = coords ((k : ZMod secp256k1N) • P) := by
  have hn : (0 : ℤ) < secp256k1N := by decide
  have hk : (k : ZMod secp256k1N) = ((k % secp256k1N).toNat : ZMod secp256k1N) := by
    rw [← Int.cast_natCast, Int.toNat_of_nonneg (Int.emod_nonneg k hn.ne'), ZMod.intCast_mod]
  rw [pointMul, ← coords_zero, pointMulLoop_coords, zero_add, hk, Nat.cast_smul_eq_nsmul]

/-! ### The point of a signature -/

/-- Where there is a square root, a power is one. -/
theorem sq_root {a y : Field256} (h : y ^ 2 = a) : (a ^ ((secp256k1P + 1) / 4)) ^ 2 = a := by
  have hexp : 2 * ((secp256k1P + 1) / 4 * 2) = secp256k1P + 1 := by decide
  rw [← h, ← pow_mul, ← pow_mul, hexp, pow_succ, ZMod.pow_card, sq]

theorem ne_zero_of_root {x y : Field256} (h : y ^ 2 = x ^ 3 + 7) : y ≠ 0 := by
  rintro rfl
  rw [zero_pow two_ne_zero] at h
  exact cube_ne x (eq_neg_of_add_eq_zero_left h.symm)

/-- The root that is taken, and which of the two is kept. -/
theorem pointOfX_eq {x : ℕ} (recId : ℕ) {y : Field256}
    (hy : y = ((x : Field256) ^ 3 + 7) ^ ((secp256k1P + 1) / 4)) :
    pointOfX x recId =
      if y ^ 2 = (x : Field256) ^ 3 + 7 then
        .ok (some ((x : ℤ), if (y.val : ℤ) % 2 ≠ recId % 2 then secp256k1P - (y.val : ℤ) else y.val))
      else .error ⟨.failClosed, "no square root — point not on curve"⟩ := by
  have hsq : (modPow x 3 secp256k1P + 7) % secp256k1P = (((x : Field256) ^ 3 + 7).val : ℤ) := by
    refine val_eq_emod ?_
    rw [modPow_eq]
    push_cast [ZMod.natCast_zmod_val]
    rfl
  have hroot : modPow (((x : Field256) ^ 3 + 7).val : ℤ) ((secp256k1P + 1) / 4) secp256k1P =
      (y.val : ℤ) := by
    rw [modPow_eq, Int.cast_natCast, ZMod.natCast_zmod_val, hy]
  have hcheck : ((y.val : ℤ) * y.val - (((x : Field256) ^ 3 + 7).val : ℤ)) % secp256k1P = 0 ↔
      y ^ 2 = (x : Field256) ^ 3 + 7 := by
    rw [val_eq_emod (x := y ^ 2 - ((x : Field256) ^ 3 + 7)) (by push_cast [ZMod.natCast_zmod_val, sq]; rfl),
      Nat.cast_eq_zero, ZMod.val_eq_zero, sub_eq_zero]
  rw [pointOfX, hsq, hroot]
  by_cases h : y ^ 2 = (x : Field256) ^ 3 + 7
  · rw [if_pos h, failClosedUnless, if_pos (decide_eq_true (hcheck.mpr h))]
    rfl
  · rw [if_neg h, failClosedUnless, if_neg (by simpa using mt hcheck.mp h)]
    rfl

theorem pointOfX_error {x recId : ℕ} {e : PyExc} (h : pointOfX x recId = .error e) :
    ∃ msg, e = ⟨.failClosed, msg⟩ := by
  rw [pointOfX_eq recId rfl] at h
  split at h
  · exact nomatch h
  · exact ⟨_, (Except.error.inj h).symm⟩

/-- **The point of a signature** is the one with its x and parity. -/
theorem pointOfX_ok {x recId : ℕ} (hx : x < secp256k1P) {p : AffinePoint} :
    pointOfX x recId = .ok p ↔ ∃ (R : SecpPoint) (y : Field256), affine R = some ((x : Field256), y) ∧
      y.val % 2 = recId % 2 ∧ coords R = p := by
  have hval : ((x : Field256).val : ℤ) = x := by rw [ZMod.val_natCast, Nat.mod_eq_of_lt hx]
  generalize hroot : ((x : Field256) ^ 3 + 7) ^ ((secp256k1P + 1) / 4) = y
  have htaken (h : y ^ 2 = (x : Field256) ^ 3 + 7) : ∃ (R : SecpPoint) (y' : Field256),
      affine R = some ((x : Field256), y') ∧ y'.val % 2 = recId % 2 ∧
        coords R = some ((x : ℤ), if (y.val : ℤ) % 2 ≠ recId % 2 then secp256k1P - (y.val : ℤ)
          else y.val) := by
    by_cases hparity : (y.val : ℤ) % 2 ≠ recId % 2
    · have hcurve : (-y) ^ 2 = (x : Field256) ^ 3 + 7 := by rw [neg_sq, h]
      have hneg : (-y).val = secp256k1P - y.val := by rw [ZMod.neg_val, if_neg (ne_zero_of_root h)]
      have hlt : y.val < secp256k1P := ZMod.val_lt y
      have hodd : secp256k1P % 2 = 1 := by decide
      have haffine : affine (.some x (-y) (nonsingular_secp256k1.mpr hcurve) : SecpPoint) =
          some ((x : Field256), -y) := rfl
      refine ⟨_, -y, haffine, by omega, ?_⟩
      rw [coords_some haffine, hval, hneg, if_pos hparity, Nat.cast_sub hlt.le]
    · have haffine : affine (.some x y (nonsingular_secp256k1.mpr h) : SecpPoint) =
          some ((x : Field256), y) := rfl
      refine ⟨_, y, haffine, by omega, ?_⟩
      rw [coords_some haffine, hval, if_neg hparity]
  rw [pointOfX_eq recId hroot.symm]
  constructor
  · intro hok
    split at hok
    · next h =>
      obtain ⟨R, y', haffine, hparity, hcoords⟩ := htaken h
      exact ⟨R, y', haffine, hparity, hcoords.trans (Except.ok.inj hok)⟩
    · exact nomatch hok
  · rintro ⟨R, y₁, hR, hparity, rfl⟩
    have hcurve : y₁ ^ 2 = (x : Field256) ^ 3 + 7 := eq_of_affine hR
    have h : y ^ 2 = (x : Field256) ^ 3 + 7 := by rw [← hroot, sq_root hcurve]
    obtain ⟨R', y', hR', hparity', hcoords⟩ := htaken h
    have hsame : R' = R := by
      refine eq_of_sign (fun y hy => isOdd_neg hy) hR' hR ?_
      rw [isOdd, isOdd, hparity, hparity']
    rw [if_pos h, ← hcoords, hsame]

/-! ### The key of a signature -/

/-- The address of a key; infinity has none. -/
def keyAddress (Q : SecpPoint) : Option String :=
  (affine Q).map fun (x, y) => "0x" ++ hex (lastN (keccak256 (word x.val ++ word y.val)) 20)

/-- **Public-key recovery**: what it takes for a signature of a digest to recover the key `Q`, with `R`
the point that it was made with. -/
structure RecoversKey (digest signature : List UInt8) (R Q : SecpPoint) : Prop where
  length_digest : digest.length = 32
  length_signature : signature.length = 65
  r_range : 1 ≤ sigR signature ∧ sigR signature < secp256k1N
  s_range : 1 ≤ sigS signature ∧ sigS signature < secp256k1N
  v_mem : sigV signature ∈ [0, 1, 2, 3, 27, 28, 29, 30]
  x_lt : sigX signature < secp256k1P
  point : ∃ y : Field256, affine R = some ((sigX signature : Field256), y) ∧
    y.val % 2 = recoveryId (sigV signature) % 2
  key : sigR signature • Q = sigS signature • R - fromBytes digest • generator

variable {digest signature : List UInt8} {R Q : SecpPoint}

theorem failClosedUnless_bind {α : Type} (ok : Bool) (msg : String) (f : Unit → Except PyExc α) :
    (failClosedUnless ok msg >>= f) = if ok then f () else .error ⟨.failClosed, msg⟩ := by
  cases ok <;> rfl

theorem recoveryId_mem {v : ℕ} : recoveryId v ∈ [0, 1, 2, 3] ↔ v ∈ [0, 1, 2, 3, 27, 28, 29, 30] := by
  simp only [recoveryId, List.mem_cons, List.not_mem_nil, or_false]
  split <;> omega

theorem addressFromPoint_coords (Q : SecpPoint) : addressFromPoint (coords Q) =
    match keyAddress Q with
    | some address => .ok address
    | none => .error ⟨.failClosed, "recovered a point at infinity — invalid signature"⟩ := by
  cases hQ : affine Q with
  | none =>
    rw [coords, keyAddress, hQ]
    rfl
  | some xy =>
    obtain ⟨x, y⟩ := xy
    have hlt (a : Field256) : a.val < 2 ^ 256 := (ZMod.val_lt a).trans (by decide)
    rw [coords_some hQ, keyAddress, hQ, addressFromPoint, toBytes32_of_lt (hlt x),
      toBytes32_of_lt (hlt y)]
    rfl

theorem natCast_ne_zero_order {n : ℕ} (hpos : 1 ≤ n) (hlt : n < secp256k1N) :
    (n : ZMod secp256k1N) ≠ 0 := by
  rw [Ne, ZMod.natCast_eq_zero_iff]
  exact Nat.not_dvd_of_pos_of_lt hpos hlt

/-- With the scalars as residues. -/
theorem key_iff_recovers : sigR signature • Q = sigS signature • R - fromBytes digest • generator ↔
    Recovers (fromBytes digest : ZMod secp256k1N) (sigR signature) (sigS signature) generator R Q := by
  rw [Recovers, Nat.cast_smul_eq_nsmul, Nat.cast_smul_eq_nsmul, Nat.cast_smul_eq_nsmul]

/-- The key that is computed. -/
theorem recovered_coords (r s z : ℕ) (R : SecpPoint) :
    pointMul (invMod r secp256k1N)
      (pointAdd (pointMul s (coords R)) (pointMul (-(z : ℤ) % secp256k1N) generatorPoint)) =
    coords ((r : ZMod secp256k1N)⁻¹ •
      ((s : ZMod secp256k1N) • R + -((z : ZMod secp256k1N) • generator))) := by
  rw [← coords_generator, pointMul_coords, pointMul_coords, pointAdd_coords, pointMul_coords,
    invMod_eq (by decide), ZMod.intCast_mod, Int.cast_natCast, Int.cast_natCast, ZMod.natCast_zmod_val,
    Int.cast_neg, Int.cast_natCast, Int.cast_natCast, neg_smul]

/-- Past the checks, what is left is the point and its key. -/
theorem recover_of_checks (hdigest : digest.length = 32) (hsignature : signature.length = 65)
    (hid : recoveryId (sigV signature) ∈ [0, 1, 2, 3])
    (hrange : (1 ≤ sigR signature ∧ sigR signature < secp256k1N) ∧
      1 ≤ sigS signature ∧ sigS signature < secp256k1N)
    (hx : sigX signature < secp256k1P) : recoverSignerAddress digest signature =
      pointOfX (sigX signature : ℕ) (recoveryId (sigV signature)) >>= fun bigR =>
        addressFromPoint (pointMul (invMod (sigR signature : ℕ) secp256k1N)
          (pointAdd (pointMul (sigS signature : ℕ) bigR)
            (pointMul (-(fromBytes digest : ℤ) % secp256k1N) generatorPoint))) := by
  simp only [recoverSignerAddress, failClosedUnless_bind]
  rw [if_pos (decide_eq_true hdigest), if_pos (decide_eq_true hsignature),
    if_pos (decide_eq_true hid), if_pos (decide_eq_true hrange), if_pos (decide_eq_true hx)]

/-- The address of the key is what is returned. -/
theorem RecoversKey.recover (h : RecoversKey digest signature R Q) :
    recoverSignerAddress digest signature = addressFromPoint (coords Q) := by
  obtain ⟨y, haffine, hparity⟩ := h.point
  have hr := natCast_ne_zero_order h.r_range.1 h.r_range.2
  have hpoint : pointOfX (sigX signature : ℕ) (recoveryId (sigV signature)) = .ok (coords R) :=
    (pointOfX_ok h.x_lt).mpr ⟨R, y, haffine, hparity, rfl⟩
  have hQ := (recovers_iff hr).mp (key_iff_recovers.mp h.key)
  rw [recover_of_checks h.length_digest h.length_signature (recoveryId_mem.mpr h.v_mem)
    ⟨h.r_range, h.s_range⟩ h.x_lt, hpoint, hQ, ← recovered_coords]
  rfl

/-- A signature recovers a key, or the function fails closed. -/
theorem recoversKey_or_failClosed (digest signature : List UInt8) :
    (∃ R Q, RecoversKey digest signature R Q) ∨
      ∃ msg, recoverSignerAddress digest signature = .error ⟨.failClosed, msg⟩ := by
  by_cases hdigest : digest.length = 32
  · by_cases hsignature : signature.length = 65
    · by_cases hid : recoveryId (sigV signature) ∈ [0, 1, 2, 3]
      · by_cases hrange : (1 ≤ sigR signature ∧ sigR signature < secp256k1N) ∧
          1 ≤ sigS signature ∧ sigS signature < secp256k1N
        · by_cases hx : sigX signature < secp256k1P
          · cases hpoint : pointOfX (sigX signature : ℕ) (recoveryId (sigV signature)) with
            | ok p =>
              left
              obtain ⟨R, y, haffine, hparity, -⟩ := (pointOfX_ok hx).mp hpoint
              have hr := natCast_ne_zero_order hrange.1.1 hrange.1.2
              exact ⟨R, _, hdigest, hsignature, hrange.1, hrange.2, recoveryId_mem.mp hid, hx,
                ⟨y, haffine, hparity⟩, key_iff_recovers.mpr ((recovers_iff hr).mpr rfl)⟩
            | error e =>
              right
              obtain ⟨msg, rfl⟩ := pointOfX_error hpoint
              rw [recover_of_checks hdigest hsignature hid hrange hx, hpoint]
              exact ⟨msg, rfl⟩
          · simp [recoverSignerAddress, failClosedUnless_bind, hdigest, hsignature, hid, hrange, hx]
        · simp [recoverSignerAddress, failClosedUnless_bind, hdigest, hsignature, hid, hrange]
      · simp [recoverSignerAddress, failClosedUnless_bind, hdigest, hsignature, hid]
    · simp [recoverSignerAddress, failClosedUnless_bind, hdigest, hsignature]
  · simp [recoverSignerAddress, failClosedUnless_bind, hdigest]

/-- **What is returned** is the address of the recovered key. -/
theorem recoverSignerAddress_ok {address : String} :
    recoverSignerAddress digest signature = .ok address ↔
      ∃ R Q, RecoversKey digest signature R Q ∧ keyAddress Q = some address := by
  constructor
  · intro hok
    rcases recoversKey_or_failClosed digest signature with ⟨R, Q, h⟩ | ⟨msg, hfail⟩
    · refine ⟨R, Q, h, ?_⟩
      rw [h.recover, addressFromPoint_coords] at hok
      split at hok
      · next hkey => rw [hkey, Except.ok.inj hok]
      · exact nomatch hok
    · rw [hfail] at hok
      exact nomatch hok
  · rintro ⟨R, Q, h, hkey⟩
    rw [h.recover, addressFromPoint_coords, hkey]

/-- Whatever else it is given, it fails closed. -/
theorem recoverSignerAddress_error {e : PyExc}
    (herror : recoverSignerAddress digest signature = .error e) : e.cls = .failClosed := by
  rcases recoversKey_or_failClosed digest signature with ⟨R, Q, h⟩ | ⟨msg, hfail⟩
  · rw [h.recover, addressFromPoint_coords] at herror
    split at herror
    · exact nomatch herror
    · rw [← Except.error.inj herror]
  · rw [hfail] at herror
    rw [← Except.error.inj herror]

/-! ### Signing and verifying -/

/-- **A textbook signature** of a digest under the private key `d`, with the nonce `k`: `r` is the x of
`k • G` modulo the order, `s` is `k⁻¹ * (z + r * d)`, and `v` says which point it was. -/
structure Signs (d k : ℕ) (digest signature : List UInt8) : Prop where
  key_range : 1 ≤ d ∧ d < secp256k1N
  nonce_range : 1 ≤ k ∧ k < secp256k1N
  length_digest : digest.length = 32
  signed : ∃ (x y : Field256) (r s : ℕ) (v : UInt8),
    affine (k • generator) = some (x, y) ∧
    r = x.val % secp256k1N ∧ 1 ≤ r ∧
    s * k ≡ fromBytes digest + r * d [MOD secp256k1N] ∧ 1 ≤ s ∧ s < secp256k1N ∧
    recoveryId v.toNat = 2 * (x.val / secp256k1N) + y.val % 2 ∧
    signature = word r ++ word s ++ [v]

/-- **A signature verifies** under a key: the point that its parts and the key make has the x that the
signature names. -/
structure Verifies (Q : SecpPoint) (digest signature : List UInt8) : Prop where
  key_ne_zero : Q ≠ 0
  length_signature : signature.length = 65
  r_range : 1 ≤ sigR signature ∧ sigR signature < secp256k1N
  s_range : 1 ≤ sigS signature ∧ sigS signature < secp256k1N
  x_eq : ∃ x y : Field256,
    affine ((fromBytes digest * (sigS signature : ZMod secp256k1N)⁻¹) • generator +
      (sigR signature * (sigS signature : ZMod secp256k1N)⁻¹) • Q) = some (x, y) ∧
    x.val % secp256k1N = sigR signature

theorem keyAddress_isSome (hQ : Q ≠ 0) : ∃ address, keyAddress Q = some address := by
  cases h : affine Q with
  | none => exact absurd (affine_injective (h.trans affine_zero.symm)) hQ
  | some xy => exact ⟨_, by rw [keyAddress, h, Option.map_some]⟩

/-- **A recovered key verifies** the signature. -/
theorem RecoversKey.verifies (h : RecoversKey digest signature R Q) (hQ : Q ≠ 0) :
    Verifies Q digest signature where
  key_ne_zero := hQ
  length_signature := h.length_signature
  r_range := h.r_range
  s_range := h.s_range
  x_eq := by
    obtain ⟨y, haffine, -⟩ := h.point
    have hs := natCast_ne_zero_order h.s_range.1 h.s_range.2
    have hval : ((sigX signature : Field256)).val = sigX signature := by
      rw [ZMod.val_natCast, Nat.mod_eq_of_lt h.x_lt]
    refine ⟨(sigX signature : Field256), y, ?_, ?_⟩
    · rw [(key_iff_recovers.mp h.key).verifies hs]
      exact haffine
    · rw [hval, sigX, Nat.add_mul_mod_self_right, Nat.mod_eq_of_lt h.r_range.2]

/-- Bytes read back. -/
theorem fromBytes_littleBytes (k n : ℕ) : fromBytes (littleBytes k n).reverse = n % 256 ^ k := by
  rw [fromBytes, List.foldl_reverse]
  induction k generalizing n with
  | zero => rw [littleBytes, List.foldr_nil, pow_zero, Nat.mod_one]
  | succ k ih =>
    rw [littleBytes, List.foldr_cons, ih, pow_succ', Nat.mod_mul, UInt8.toNat_ofNat', Nat.mod_mod,
      add_comm]

theorem fromBytes_word {n : ℕ} (h : n < secp256k1N) : fromBytes (word n) = n := by
  rw [word, fromBytes_littleBytes, Nat.mod_eq_of_lt (h.trans (by decide))]

/-- The parts of a signature. -/
theorem parts_of_words {r s : ℕ} (v : UInt8) (hr : r < secp256k1N) (hs : s < secp256k1N) :
    sigR (word r ++ word s ++ [v]) = r ∧ sigS (word r ++ word s ++ [v]) = s ∧
      sigV (word r ++ word s ++ [v]) = v.toNat := by
  have hlength : (word r ++ word s).length = 64 := by
    rw [List.length_append, length_word, length_word]
  refine ⟨?_, ?_, ?_⟩
  · rw [sigR, List.append_assoc, List.take_left' (length_word r), fromBytes_word hr]
  · rw [sigS, List.append_assoc, List.drop_left' (length_word r), List.take_left' (length_word s),
      fromBytes_word hs]
  · rw [sigV, List.getD_append_right _ _ _ _ hlength.le, hlength]
    rfl

theorem generator_smul_ne_zero {d : ℕ} (hd : 1 ≤ d ∧ d < secp256k1N) : d • generator ≠ 0 := by
  rw [← Nat.cast_smul_eq_nsmul (ZMod secp256k1N)]
  intro h
  have hunit := congrArg ((d : ZMod secp256k1N)⁻¹ • ·) h
  rw [smul_smul, inv_mul_cancel₀ (natCast_ne_zero_order hd.1 hd.2), one_smul, smul_zero] at hunit
  exact generator_ne_zero hunit

/-- **A signature recovers the key it was made with.** -/
theorem Signs.recoversKey {d k : ℕ} (h : Signs d k digest signature) :
    RecoversKey digest signature (k • generator) (d • generator) := by
  obtain ⟨x, y, r, s, v, haffine, hr, hrpos, hsk, hspos, hslt, hid, rfl⟩ := h.signed
  have hrlt : r < secp256k1N := by
    rw [hr]
    exact Nat.mod_lt _ (by decide)
  obtain ⟨hsigR, hsigS, hsigV⟩ := parts_of_words v hrlt hslt
  have hxlt : x.val < secp256k1P := ZMod.val_lt x
  have hparity : y.val % 2 < 2 := Nat.mod_lt _ (by decide)
  have hbig : x.val / secp256k1N ≤ 1 :=
    Nat.lt_succ_iff.mp ((Nat.div_lt_iff_lt_mul (by decide)).mpr (hxlt.trans (by decide)))
  have hsigX : sigX (word r ++ word s ++ [v]) = x.val := by
    rw [sigX, hsigR, hsigV, hid, show (2 * (x.val / secp256k1N) + y.val % 2) / 2 = x.val / secp256k1N by
      omega, hr, mul_comm]
    exact Nat.mod_add_div _ _
  refine ⟨h.length_digest, ?_, ?_, ?_, ?_, ?_, ⟨y, ?_, ?_⟩, key_iff_recovers.mpr ?_⟩
  · rw [List.length_append, List.length_append, length_word, length_word, List.length_singleton]
  · rw [hsigR]
    exact ⟨hrpos, hrlt⟩
  · rw [hsigS]
    exact ⟨hspos, hslt⟩
  · rw [← recoveryId_mem, hsigV, hid]
    simp only [List.mem_cons, List.not_mem_nil, or_false]
    omega
  · rw [hsigX]
    exact hxlt
  · rw [hsigX, ZMod.natCast_zmod_val, haffine]
  · rw [hsigV, hid]
    omega
  · have hscalars : (s : ZMod secp256k1N) * k = fromBytes digest + r * d := by
      exact_mod_cast (ZMod.natCast_eq_natCast_iff _ _ _).mpr hsk
    rw [hsigR, hsigS, ← Nat.cast_smul_eq_nsmul (ZMod secp256k1N) k,
      ← Nat.cast_smul_eq_nsmul (ZMod secp256k1N) d]
    exact recovers_of_sign hscalars

/-! ### The wallet's signature -/

/-- `TypedDataSignature`. -/
structure TypedDataSignature where
  method : String
  signature : String
  eip712Digest : String
  recoveredAddress : String
  deriving DecidableEq, Repr

/-- `_strip0x`. -/
def strip0x (value : String) : String :=
  match value.toList with
  | '0' :: 'x' :: rest => String.ofList rest
  | _ => value

/-- `_extract_signature`. -/
def extractSignature (response : Value) : Except PyExc String :=
  let data := match response with
    | .dict items => (items.lookup "data").getD (.dict [])
    | _ => .dict []
  let signature := match data with
    | .dict items => (items.lookup "signature").getD .none
    | _ => .none
  match signature with
  | .str text =>
    if text = "" then .error ⟨.failClosed, "Privy response carried no signature — fail closed"⟩
    else .ok text
  | _ => .error ⟨.failClosed, "Privy response carried no signature — fail closed"⟩

/-- `_validate_auth`. -/
def validateAuth (nowMs : ℤ) (auth : PrivyAuthContext) (pinnedThreshold : ℤ) : Except PyExc Unit := do
  failClosedUnless (nowMs < auth.requestExpiryMs)
    "privy-request-expiry has passed — refusing (signed replay guard, fail closed)"
  failClosedUnless (1 ≤ pinnedThreshold)
    "pinned quorum_threshold must be >= 1 (a signature set is required)"
  failClosedUnless (auth.quorumThreshold = pinnedThreshold)
    ("authorization quorum_threshold does not equal the pinned binding threshold — a " ++
      "request may not self-downgrade the pinned quorum (fail closed before any I/O)")
  failClosedUnless (pinnedThreshold ≤ auth.quorumSignatures.dedup.length)
    "authorization quorum not met: fewer distinct signatures than the PINNED threshold"
  failClosedUnless (auth.idempotencyKey ≠ "") "auth is missing an idempotency_key"

/-- `value == "Order"`. -/
def isOrderType : Value → Bool
  | .str text => text = "Order"
  | _ => false

section Sign

variable (textOf reprOf : Value → String) (client : String → Value → PrivyAuthContext → Except PyExc Value)
  (nowMs : ℤ)

/-- The client is called, and whatever it raises freezes the wallet. -/
def clientResponse (walletRef : String) (typedData : Value) (auth : PrivyAuthContext) :
    Except PyExc Value :=
  match client walletRef typedData auth with
  | .ok response => .ok response
  | .error e =>
    if e.cls = .failClosed ∨ ¬ e.isException then .error e
    else .error ⟨.failClosed,
      "Privy provider error while signing — freezing (Mode-B never falls back to a local key)"⟩

/-- `PrivyEvmWalletControlPlane.sign_typed_data`. -/
def signTypedData (payload : CompiledSigningPayload) (binding : ExecutionWalletBinding)
    (auth : PrivyAuthContext) : Except PyExc TypedDataSignature := do
  validateAuth nowMs auth binding.quorumThreshold
  let typedData := payload.canonicalV2TypedData
  let primaryType ← typedData.get "primaryType"
  failClosedUnless (isOrderType primaryType)
    ("default-deny: sign_typed_data signs ONLY the V2 'Order' domain, got primaryType " ++
      reprOf primaryType ++ " (REQ-018a)")
  let message ← typedData.get "message" (.dict [])
  let orderSigner := (← message.get "signer" (.str "")).text textOf
  let localDigestHex ← orderHashFromTypedData textOf typedData
  failClosedUnless (lower localDigestHex = lower payload.eip712Digest)
    "locally recomputed EIP-712 digest disagrees with the compiled payload"
  failClosedUnless (lower orderSigner = lower binding.walletAddress)
    "compiled order signer does not equal the bound wallet address (custody mismatch)"
  let response ← clientResponse client binding.walletRef typedData auth
  let signatureHex ← extractSignature response
  let digestBytes ← fromHex (strip0x localDigestHex)
  let signatureBytes ← fromHex (strip0x signatureHex)
  let recovered ← recoverSignerAddress digestBytes signatureBytes
  failClosedUnless (lower recovered = lower binding.walletAddress)
    "recovered signer does not equal binding.wallet_address (custody mismatch, fail closed)"
  failClosedUnless (lower recovered = lower orderSigner)
    "recovered signer does not equal the compiled order signer (fail closed)"
  return {
    method := allowedSignMethod
    signature := signatureHex
    eip712Digest := localDigestHex
    recoveredAddress := recovered }

end Sign

/-! ### Bytes written out and read back -/

theorem hexValue_hexChar : ∀ n < 16, hexValue (hexChar n) = some n ∧ isHexBlank (hexChar n) = false := by
  decide

theorem fromHexChars_hexChars (data : List UInt8) : fromHexChars (hexChars data) = some data := by
  induction data with
  | nil => rfl
  | cons byte rest ih =>
    have hlt : byte.toNat < 256 := UInt8.toNat_lt byte
    obtain ⟨hhigh, hblank⟩ := hexValue_hexChar (byte.toNat / 16) (by omega)
    obtain ⟨hlow, -⟩ := hexValue_hexChar (byte.toNat % 16) (by omega)
    have hbyte : UInt8.ofNat (16 * (byte.toNat / 16) + byte.toNat % 16) = byte := by
      rw [Nat.div_add_mod, UInt8.ofNat_toNat]
    have hrest : hexChars (byte :: rest) =
        hexChar (byte.toNat / 16) :: hexChar (byte.toNat % 16) :: hexChars rest := rfl
    rw [hrest, fromHexChars, hblank, hhigh, hlow, ih]
    simp only [Option.bind_eq_bind, Option.bind_some, hbyte]
    rfl

theorem fromHex_hex (data : List UInt8) : fromHex (strip0x ("0x" ++ hex data)) = .ok data := by
  have hstrip : strip0x ("0x" ++ hex data) = hex data := by
    rw [strip0x, String.toList_append]
    exact String.ofList_toList
  rw [hstrip, fromHex, hex, String.toList_ofList, fromHexChars_hexChars]

/-- **What the wallet returns** verifies, for the order hash computed here, under a key with the address
of the wallet. -/
theorem signTypedData_ok {textOf reprOf : Value → String}
    {client : String → Value → PrivyAuthContext → Except PyExc Value} {nowMs : ℤ}
    {payload : CompiledSigningPayload} {binding : ExecutionWalletBinding} {auth : PrivyAuthContext}
    {result : TypedDataSignature}
    (h : signTypedData textOf reprOf client nowMs payload binding auth = .ok result) :
    ∃ digest signature Q, orderHash textOf payload.canonicalV2TypedData = .ok digest ∧
      result.eip712Digest = "0x" ++ hex digest ∧
      fromHex (strip0x result.signature) = .ok signature ∧ Verifies Q digest signature ∧
      keyAddress Q = some result.recoveredAddress ∧
      lower result.recoveredAddress = lower binding.walletAddress := by
  rw [signTypedData] at h
  obtain ⟨-, -, h⟩ := bind_eq_ok.mp h
  dsimp only at h
  obtain ⟨primaryType, -, h⟩ := bind_eq_ok.mp h
  obtain ⟨-, -, h⟩ := bind_eq_ok.mp h
  obtain ⟨message, -, h⟩ := bind_eq_ok.mp h
  obtain ⟨signer, -, h⟩ := bind_eq_ok.mp h
  obtain ⟨localDigestHex, hdigest, h⟩ := bind_eq_ok.mp h
  obtain ⟨-, -, h⟩ := bind_eq_ok.mp h
  obtain ⟨-, -, h⟩ := bind_eq_ok.mp h
  obtain ⟨response, -, h⟩ := bind_eq_ok.mp h
  obtain ⟨signatureHex, -, h⟩ := bind_eq_ok.mp h
  obtain ⟨digestBytes, hbytes, h⟩ := bind_eq_ok.mp h
  obtain ⟨signatureBytes, hsignature, h⟩ := bind_eq_ok.mp h
  obtain ⟨recovered, hrecovered, h⟩ := bind_eq_ok.mp h
  obtain ⟨⟨⟩, hbound, h⟩ := bind_eq_ok.mp h
  obtain ⟨-, -, h⟩ := bind_eq_ok.mp h
  obtain rfl := Except.ok.inj h
  obtain ⟨digest, hhash, hhex⟩ := bind_eq_ok.mp hdigest
  obtain rfl := Except.ok.inj hhex
  rw [fromHex_hex, Except.ok.injEq] at hbytes
  obtain ⟨R, Q, hkey, haddress⟩ := recoverSignerAddress_ok.mp hrecovered
  have hQ : Q ≠ 0 := by
    rintro rfl
    exact nomatch haddress
  exact ⟨digest, signatureBytes, Q, hhash, rfl, hsignature, hbytes ▸ hkey.verifies hQ, haddress,
    of_decide_eq_true (failClosedUnless_ok.mp hbound)⟩

/-- **Signer recovery is public-key recovery**: what is returned is the address of the recovered key, and
nothing is returned where there is none; a signature made with a private key recovers the address of its
public key; and what the wallet returns verifies under a key that has the wallet's address. -/
theorem recoverSignerAddress_recovers :
    (∀ digest signature address, recoverSignerAddress digest signature = .ok address ↔
      ∃ R Q, RecoversKey digest signature R Q ∧ Q ≠ 0 ∧ keyAddress Q = some address) ∧
    (∀ digest signature, (¬ ∃ R Q, RecoversKey digest signature R Q ∧ Q ≠ 0) →
      ∃ msg, recoverSignerAddress digest signature = .error ⟨.failClosed, msg⟩) ∧
    (∀ d k digest signature, Signs d k digest signature →
      ∃ address, keyAddress (d • generator) = some address ∧
        recoverSignerAddress digest signature = .ok address) ∧
    ∀ textOf reprOf client nowMs payload binding auth result,
      signTypedData textOf reprOf client nowMs payload binding auth = .ok result →
      ∃ digest signature Q, orderHash textOf payload.canonicalV2TypedData = .ok digest ∧
        result.eip712Digest = "0x" ++ hex digest ∧
        fromHex (strip0x result.signature) = .ok signature ∧ Verifies Q digest signature ∧
        keyAddress Q = some result.recoveredAddress ∧
        lower result.recoveredAddress = lower binding.walletAddress := by
  have hfinite (Q : SecpPoint) (address : String) (h : keyAddress Q = some address) : Q ≠ 0 := by
    rintro rfl
    exact nomatch h
  refine ⟨fun digest signature address => ?_, fun digest signature hnone => ?_,
    fun d k digest signature h => ?_, fun textOf reprOf client nowMs payload binding auth result h =>
      signTypedData_ok h⟩
  · rw [recoverSignerAddress_ok]
    exact ⟨fun ⟨R, Q, h, hkey⟩ => ⟨R, Q, h, hfinite Q address hkey, hkey⟩,
      fun ⟨R, Q, h, _, hkey⟩ => ⟨R, Q, h, hkey⟩⟩
  · cases hresult : recoverSignerAddress digest signature with
    | ok address =>
      obtain ⟨R, Q, h, hkey⟩ := recoverSignerAddress_ok.mp hresult
      exact absurd ⟨R, Q, h, hfinite Q address hkey⟩ hnone
    | error e =>
      refine ⟨e.msg, ?_⟩
      rw [← recoverSignerAddress_error hresult]
  · obtain ⟨address, hkey⟩ := keyAddress_isSome (generator_smul_ne_zero h.key_range)
    exact ⟨address, hkey, recoverSignerAddress_ok.mpr ⟨_, _, h.recoversKey, hkey⟩⟩

/-- The signature of the zero digest by the key one, with the nonce one. -/
theorem recoverSignerAddress_recovers_generator : ∃ address,
    keyAddress ((1 : ℕ) • generator) = some address ∧
      recoverSignerAddress (List.replicate 32 0)
        (word secp256k1Gx ++ word secp256k1Gx ++ [27]) = .ok address := by
  refine recoverSignerAddress_recovers.2.2.1 1 1 _ _ ⟨by decide, by decide, by decide, ?_⟩
  have hx : ((secp256k1Gx : Field256)).val = secp256k1Gx := by
    rw [ZMod.val_natCast, Nat.mod_eq_of_lt (by decide)]
  have hy : ((secp256k1Gy : Field256)).val = secp256k1Gy := by
    rw [ZMod.val_natCast, Nat.mod_eq_of_lt (by decide)]
  have hzero : fromBytes (List.replicate 32 0) = 0 := by decide
  refine ⟨secp256k1Gx, secp256k1Gy, secp256k1Gx, secp256k1Gx, 27, ?_, ?_, by decide, ?_, by decide,
    by decide, ?_, rfl⟩
  · rw [one_nsmul, affine_generator]
  · rw [hx, Nat.mod_eq_of_lt (by decide)]
  · rw [hzero, zero_add]
  · rw [hx, hy]
    decide

end Veridex.DustExecution
