import Mathlib

/-!
# Powers modulo a number, and primes shown by a root

`powMod` raises to a power by squaring, one step for each bit of the exponent. Over it, `prime_of_root`
is Lucas's test: a number is prime when another has order one less than it.
-/

namespace Veridex.Lib.PowMod

variable {m p b e acc bits : ℕ}

/-- `acc * b ^ e` modulo `m`, over the bits of the exponent from the lowest. -/
def powModAux (m : ℕ) : ℕ → ℕ → ℕ → ℕ → ℕ
  | 0, _, _, acc => acc
  | bits + 1, b, e, acc =>
    powModAux m bits (b * b % m) (e / 2) (if e % 2 = 1 then acc * b % m else acc)

/-- `b ^ e % m`, by squaring. -/
def powMod (b e m : ℕ) : ℕ :=
  powModAux m (e.log2 + 1) (b % m) e (1 % m)

theorem cast_powModAux (h : e < 2 ^ bits) :
    (powModAux m bits b e acc : ZMod m) = acc * (b : ZMod m) ^ e := by
  induction bits generalizing b e acc with
  | zero =>
    obtain rfl : e = 0 := Nat.lt_one_iff.mp h
    rw [powModAux, pow_zero, mul_one]
  | succ bits ih =>
    have hhalf : e / 2 < 2 ^ bits := by
      rw [pow_succ] at h
      omega
    rw [powModAux, ih hhalf, ZMod.natCast_mod, Nat.cast_mul, ← sq, ← pow_mul]
    -- the exponent is twice its half, and one more where it is odd
    by_cases hodd : e % 2 = 1
    · have he : e = 2 * (e / 2) + 1 := by omega
      rw [if_pos hodd, ZMod.natCast_mod, Nat.cast_mul]
      conv_rhs => rw [he, pow_succ]
      ring
    · have he : 2 * (e / 2) = e := by omega
      rw [if_neg hodd, he]

theorem powModAux_lt (hm : 0 < m) (hacc : acc < m) : powModAux m bits b e acc < m := by
  induction bits generalizing b e acc with
  | zero => exact hacc
  | succ bits ih =>
    refine ih ?_
    split
    · exact Nat.mod_lt _ hm
    · exact hacc

theorem cast_powMod : (powMod b e m : ZMod m) = (b : ZMod m) ^ e := by
  rw [powMod, cast_powModAux Nat.lt_log2_self, ZMod.natCast_mod, ZMod.natCast_mod, Nat.cast_one,
    one_mul]

theorem powMod_lt (hm : 0 < m) : powMod b e m < m :=
  powModAux_lt hm (Nat.mod_lt _ hm)

theorem powMod_eq_one (hm : 1 < m) : powMod b e m = 1 ↔ (b : ZMod m) ^ e = 1 := by
  have hcast : ((1 : ℕ) : ZMod m) = 1 := Nat.cast_one
  rw [← cast_powMod, ← hcast, ZMod.natCast_eq_natCast_iff',
    Nat.mod_eq_of_lt (powMod_lt (Nat.zero_lt_of_lt hm)), Nat.mod_eq_of_lt hm]

/-- What is checked of a root: its power to one less than the number is one, and to no smaller
part of it that leaves out one of the factors. -/
def IsRoot (p a : ℕ) (factors : List ℕ) : Prop :=
  1 < p ∧ factors.prod = p - 1 ∧ powMod a (p - 1) p = 1 ∧
    ∀ q ∈ factors, powMod a ((p - 1) / q) p ≠ 1

instance (p a : ℕ) (factors : List ℕ) : Decidable (IsRoot p a factors) :=
  inferInstanceAs (Decidable (1 < p ∧ factors.prod = p - 1 ∧ powMod a (p - 1) p = 1 ∧
    ∀ q ∈ factors, powMod a ((p - 1) / q) p ≠ 1))

/-- **Lucas's test**: a number with a root is prime. -/
theorem prime_of_root {a : ℕ} {factors : List ℕ} (hroot : IsRoot p a factors)
    (hprime : ∀ q ∈ factors, q.Prime) : p.Prime := by
  obtain ⟨hone, hprod, hpow, hparts⟩ := hroot
  refine lucas_primality p (a : ZMod p) ((powMod_eq_one hone).mp hpow) ?_
  intro q hq hdvd hpart
  rw [← hprod] at hdvd
  obtain ⟨factor, hfactor, hq'⟩ := (Prime.dvd_prod_iff hq.prime).mp hdvd
  obtain rfl := (Nat.prime_dvd_prime_iff_eq hq (hprime factor hfactor)).mp hq'
  exact hparts q hfactor ((powMod_eq_one hone).mpr hpart)

/-- Numbers with their roots, the largest first: each has its factors further on. -/
def Certified : List (ℕ × ℕ × List ℕ) → Prop
  | [] => True
  | (p, a, factors) :: rest =>
    IsRoot p a factors ∧ (∀ q ∈ factors, q = 2 ∨ q ∈ rest.map Prod.fst) ∧ Certified rest

def decideCertified : (entries : List (ℕ × ℕ × List ℕ)) → Decidable (Certified entries)
  | [] => isTrue trivial
  | (p, a, factors) :: rest =>
    have := decideCertified rest
    inferInstanceAs (Decidable (IsRoot p a factors ∧
      (∀ q ∈ factors, q = 2 ∨ q ∈ rest.map Prod.fst) ∧ Certified rest))

instance (entries : List (ℕ × ℕ × List ℕ)) : Decidable (Certified entries) :=
  decideCertified entries

/-- Numbers whose roots are given down to two are prime. -/
theorem prime_of_certified {entries : List (ℕ × ℕ × List ℕ)} (h : Certified entries) :
    ∀ q ∈ entries.map Prod.fst, q.Prime := by
  induction entries with
  | nil => exact fun q hq => (List.not_mem_nil hq).elim
  | cons entry rest ih =>
    obtain ⟨p, a, factors⟩ := entry
    obtain ⟨hroot, hfactors, hrest⟩ := h
    have hp : p.Prime := by
      refine prime_of_root hroot fun q hq => ?_
      rcases hfactors q hq with rfl | hq
      · exact Nat.prime_two
      · exact ih hrest q hq
    intro q hq
    rw [List.map_cons, List.mem_cons] at hq
    rcases hq with rfl | hq
    · exact hp
    · exact ih hrest q hq

end Veridex.Lib.PowMod

/-!
## The curves y² = x³ + b

The points of a short Weierstrass curve with no linear term, as the programs that compute on them
write them: a pair of coordinates, or none at infinity. Chord and tangent compute the sum of the group
(`affine_add`). A point is its x and a sign of its y (`eq_of_sign`), so there are at most `2 q + 1` of
them (`card_le`); where minus `b` is not a cube none has order two (`eq_zero_of_add_self`); and then a
group of less than three times a prime `n`, with an element of order `n`, has `n` (`nsmul_eq_zero`).
`represents_jacMul`: a ladder over Jacobian triples. Last, signatures and the keys they recover.
-/

namespace Veridex.Lib.Curve

open WeierstrassCurve

/-! ### Points as pairs -/

section Field

variable {F : Type} [Field F] {b x y x₁ y₁ x₂ y₂ : F}

/-- The curve `y² = x³ + b`. -/
def shortCurve (b : F) : Affine F where
  a₁ := 0
  a₂ := 0
  a₃ := 0
  a₄ := 0
  a₆ := b

variable {P Q : (shortCurve b).Point}

/-- The coordinates of a point, if it is not at infinity. -/
def affine : (shortCurve b).Point → Option (F × F)
  | .zero => none
  | .some x y _ => some (x, y)

/-- The slope of the chord, or of the tangent of the one point. -/
def lineSlope [DecidableEq F] (x₁ y₁ x₂ y₂ : F) : F :=
  if x₁ = x₂ ∧ y₁ = y₂ then 3 * x₁ * x₁ * (2 * y₁)⁻¹ else (y₂ - y₁) * (x₂ - x₁)⁻¹

/-- Where a line of this slope through two points meets the curve again, mirrored. -/
def onLine (slope x₁ y₁ x₂ : F) : F × F :=
  (slope * slope - x₁ - x₂, slope * (x₁ - (slope * slope - x₁ - x₂)) - y₁)

/-- The sum by chord and tangent. -/
def affineAdd [DecidableEq F] : Option (F × F) → Option (F × F) → Option (F × F)
  | none, q => q
  | p, none => p
  | some (x₁, y₁), some (x₂, y₂) =>
    if x₁ = x₂ ∧ y₁ + y₂ = 0 then none
    else some (onLine (lineSlope x₁ y₁ x₂ y₂) x₁ y₁ x₂)

@[simp]
theorem affine_zero : affine (0 : (shortCurve b).Point) = none := rfl

@[simp]
theorem affine_some (h : (shortCurve b).Nonsingular x y) : affine (.some x y h) = some (x, y) := rfl

theorem affine_injective : Function.Injective (affine (b := b)) := by
  intro P Q h
  cases P with
  | zero =>
    cases Q with
    | zero => rfl
    | some x y hQ => exact nomatch h
  | some x₁ y₁ hP =>
    cases Q with
    | zero => exact nomatch h
    | some x₂ y₂ hQ =>
      obtain ⟨rfl, rfl⟩ := Prod.mk.inj (Option.some.inj h)
      rfl

theorem negY_shortCurve (x y : F) : (shortCurve b).negY x y = -y := by
  rw [Affine.negY, shortCurve, zero_mul, sub_zero, sub_zero]

theorem equation_shortCurve : (shortCurve b).Equation x y ↔ y ^ 2 = x ^ 3 + b := by
  rw [Affine.equation_iff, shortCurve, zero_mul, zero_mul, zero_mul, add_zero, add_zero,
    add_zero, add_zero]

/-- Where the curve is smooth, its points are the pairs on it. -/
theorem nonsingular_shortCurve (hsmooth : 432 * b ^ 2 ≠ 0) :
    (shortCurve b).Nonsingular x y ↔ y ^ 2 = x ^ 3 + b := by
  rw [← equation_shortCurve]
  refine (Affine.equation_iff_nonsingular_of_Δ_ne_zero fun hΔ => hsmooth ?_).symm
  have hdisc : (shortCurve b).Δ = -(432 * b ^ 2) := by
    simp only [Δ, b₂, b₄, b₆, b₈, shortCurve]
    ring
  rw [hdisc, neg_eq_zero] at hΔ
  exact hΔ

theorem eq_of_affine (h : affine P = some (x, y)) : y ^ 2 = x ^ 3 + b := by
  cases P with
  | zero => exact nomatch h
  | some x' y' hP =>
    obtain ⟨rfl, rfl⟩ := Prod.mk.inj (Option.some.inj h)
    exact equation_shortCurve.mp hP.1

/-- Two points of one x are the same or opposite. -/
theorem eq_or_eq_neg_of_curve (h₁ : y₁ ^ 2 = x ^ 3 + b) (h₂ : y₂ ^ 2 = x ^ 3 + b) :
    y₁ = y₂ ∨ y₁ = -y₂ :=
  sq_eq_sq_iff_eq_or_eq_neg.mp (h₁.trans h₂.symm)

theorem affine_neg (h : affine P = some (x, y)) : affine (-P) = some (x, -y) := by
  cases P with
  | zero => exact nomatch h
  | some x' y' hP =>
    obtain ⟨rfl, rfl⟩ := Prod.mk.inj (Option.some.inj h)
    rw [Affine.Point.neg_some, affine_some, negY_shortCurve]

/-! ### How many points there are -/

/-- A point is its x and a sign of its y. -/
theorem eq_of_sign {sign : F → Bool} (hsign : ∀ y, y ≠ 0 → sign (-y) ≠ sign y)
    (hP : affine P = some (x, y₁)) (hQ : affine Q = some (x, y₂)) (h : sign y₁ = sign y₂) : P = Q := by
  refine affine_injective ?_
  rw [hP, hQ]
  rcases eq_or_eq_neg_of_curve (eq_of_affine hP) (eq_of_affine hQ) with rfl | rfl
  · rfl
  · by_cases hy : y₂ = 0
    · rw [hy, neg_zero]
    · exact absurd h (hsign y₂ hy)

theorem finite_points [Finite F] : Finite (shortCurve b).Point :=
  Finite.of_injective affine affine_injective

/-- There are at most two points for each x, and the one at infinity. -/
theorem card_le [Finite F] {sign : F → Bool} (hsign : ∀ y, y ≠ 0 → sign (-y) ≠ sign y) :
    Nat.card (shortCurve b).Point ≤ 2 * Nat.card F + 1 := by
  have hinj : Function.Injective fun P : (shortCurve b).Point =>
      (affine P).map fun xy => (xy.1, sign xy.2) := by
    intro P Q h
    cases hP : affine P with
    | none =>
      cases hQ : affine Q with
      | none => exact affine_injective (hP.trans hQ.symm)
      | some xy₂ =>
        simp only [hP, hQ] at h
        exact nomatch h
    | some xy₁ =>
      cases hQ : affine Q with
      | none =>
        simp only [hP, hQ] at h
        exact nomatch h
      | some xy₂ =>
        simp only [hP, hQ, Option.map_some, Option.some.injEq, Prod.mk.injEq] at h
        obtain ⟨x₁, y₁⟩ := xy₁
        obtain ⟨x₂, y₂⟩ := xy₂
        obtain ⟨rfl, hy⟩ := h
        exact eq_of_sign hsign hP hQ hy
  have hcard := Nat.card_le_card_of_injective _ hinj
  rwa [Finite.card_option, Nat.card_prod, Nat.card_eq_fintype_card (α := Bool), Fintype.card_bool,
    mul_comm] at hcard

/-- A chord, by the differences of its two points over a common third coordinate. -/
theorem chord_of_differences {X Y Z H R : F} (hZ : Z ≠ 0) (hH : H ≠ 0) :
    onLine (((R + Y) / Z ^ 3 - Y / Z ^ 3) / ((H + X) / Z ^ 2 - X / Z ^ 2)) (X / Z ^ 2) (Y / Z ^ 3)
        ((H + X) / Z ^ 2) =
      ((R * R - (H * H * H + 2 * (X * H * H))) / (Z * H) ^ 2,
        (R * (X * H * H - (R * R - (H * H * H + 2 * (X * H * H)))) - Y * H * H * H) / (Z * H) ^ 3) := by
  have hslope : ((R + Y) / Z ^ 3 - Y / Z ^ 3) / ((H + X) / Z ^ 2 - X / Z ^ 2) = R / (Z * H) := by
    rw [← sub_div, ← sub_div, add_sub_cancel_right, add_sub_cancel_right]
    field_simp
  rw [hslope, onLine]
  congr 1
  · field_simp
    ring
  · field_simp
    ring

/-! ### The sum by chord and tangent -/

variable [DecidableEq F]

theorem slope_shortCurve (h₁ : y₁ ^ 2 = x₁ ^ 3 + b) (h₂ : y₂ ^ 2 = x₂ ^ 3 + b)
    (hne : ¬ (x₁ = x₂ ∧ y₁ + y₂ = 0)) :
    (shortCurve b).slope x₁ x₂ y₁ y₂ = lineSlope x₁ y₁ x₂ y₂ := by
  by_cases hx : x₁ = x₂
  · subst hx
    have hopposite : y₁ ≠ -y₂ := fun h => hne ⟨rfl, eq_neg_iff_add_eq_zero.mp h⟩
    obtain rfl := (eq_or_eq_neg_of_curve h₁ h₂).resolve_right hopposite
    rw [Affine.slope_of_Y_ne rfl (by rwa [negY_shortCurve]), negY_shortCurve, lineSlope,
      if_pos ⟨rfl, rfl⟩, shortCurve, mul_zero, zero_mul, zero_mul, add_zero, add_zero, sub_zero,
      sub_neg_eq_add, ← two_mul, div_eq_mul_inv]
    ring
  · rw [Affine.slope_of_X_ne hx, lineSlope, if_neg fun h => hx h.1, ← neg_sub y₂, ← neg_sub x₂,
      neg_div_neg_eq, div_eq_mul_inv]

/-- **Chord and tangent** compute the sum of two points. -/
theorem affine_add (P Q : (shortCurve b).Point) :
    affine (P + Q) = affineAdd (affine P) (affine Q) := by
  cases P with
  | zero => exact congrArg affine (zero_add Q)
  | some x₁ y₁ hP =>
    cases Q with
    | zero => exact congrArg affine (add_zero (Affine.Point.some x₁ y₁ hP))
    | some x₂ y₂ hQ =>
      have hneg : x₁ = x₂ ∧ y₁ = (shortCurve b).negY x₂ y₂ ↔ x₁ = x₂ ∧ y₁ + y₂ = 0 := by
        rw [negY_shortCurve, eq_neg_iff_add_eq_zero]
      rw [affine_some, affine_some, affineAdd]
      by_cases h : x₁ = x₂ ∧ y₁ + y₂ = 0
      · rw [if_pos h, Affine.Point.add_of_Y_eq (hneg.mpr h).1 (hneg.mpr h).2, affine_zero]
      · rw [if_neg h, Affine.Point.add_some (mt hneg.mp h), affine_some,
          slope_shortCurve (equation_shortCurve.mp hP.1) (equation_shortCurve.mp hQ.1) h]
        rw [Affine.addY, negY_shortCurve, Affine.negAddY, Affine.addX, onLine, shortCurve]
        congr 2
        · ring
        · ring

/-- Where minus `b` is not a cube, no point has order two. -/
theorem eq_zero_of_add_self (htwo : (2 : F) ≠ 0) (hcube : ∀ x : F, x ^ 3 ≠ -b) (h : P + P = 0) :
    P = 0 := by
  cases hP : affine P with
  | none => exact affine_injective hP
  | some xy =>
    obtain ⟨x, y⟩ := xy
    have hsum := affine_add P P
    rw [h, hP, affine_zero, affineAdd] at hsum
    split at hsum
    · next hzero =>
      rw [← two_mul] at hzero
      have hy := (mul_eq_zero.mp hzero.2).resolve_left htwo
      have hcurve := eq_of_affine hP
      rw [hy, zero_pow two_ne_zero] at hcurve
      exact absurd (eq_neg_iff_add_eq_zero.mpr hcurve.symm) (hcube x)
    · exact nomatch hsum

end Field

/-- **A group with few elements**: of less than three times a prime, with an element of that order and
none of order two, has that exponent. -/
theorem nsmul_eq_zero {A : Type} [AddCommGroup A] [Finite A] {n : ℕ} (hn : n.Prime) {g : A}
    (hg : n • g = 0) (hne : g ≠ 0) (hcard : Nat.card A < 3 * n) (htwo : ∀ a : A, a + a = 0 → a = 0)
    (a : A) : n • a = 0 := by
  have := Fact.mk hn
  have := Fintype.ofFinite A
  obtain ⟨k, hk⟩ : n ∣ Nat.card A := addOrderOf_eq_prime hg hne ▸ addOrderOf_dvd_natCard g
  have hpos : 0 < Nat.card A := Nat.card_pos
  have hk3 : k < 3 := by
    rw [hk, mul_comm] at hcard
    exact Nat.lt_of_mul_lt_mul_right hcard
  have hk0 : k ≠ 0 := fun h => by
    rw [hk, h, mul_zero] at hpos
    exact lt_irrefl 0 hpos
  -- an even number of elements would have one of order two
  have hk2 : k ≠ 2 := fun h => by
    have hdvd : 2 ∣ Fintype.card A := by
      rw [← Nat.card_eq_fintype_card, hk, h]
      exact dvd_mul_left 2 n
    obtain ⟨c, hc⟩ := exists_prime_addOrderOf_dvd_card 2 hdvd
    have hc0 : c = 0 := htwo c (by rw [← two_nsmul, ← hc, addOrderOf_nsmul_eq_zero])
    rw [hc0, addOrderOf_zero] at hc
    exact absurd hc (by decide)
  obtain rfl : k = 1 := by omega
  rw [mul_one] at hk
  rw [← hk]
  exact card_nsmul_eq_zero'

/-! ### A ladder over Jacobian triples -/

section Ladder

variable {p gx gy : ℕ} {t : ℕ × ℕ × ℕ}

/-- `a - c` modulo `p`. -/
def subMod (p a c : ℕ) : ℕ := (a + (p - c % p)) % p

/-- The double of a triple. -/
def jacDouble (p : ℕ) : ℕ × ℕ × ℕ → ℕ × ℕ × ℕ
  | (X, Y, Z) =>
    let m := 3 * X * X % p
    let s := 4 * X * Y * Y % p
    let x := subMod p (m * m) (2 * s)
    (x, subMod p (m * subMod p s x) (8 * Y * Y * Y * Y), 2 * Y * Z % p)

/-- A triple and a pair, added. -/
def jacAdd (p gx gy : ℕ) : ℕ × ℕ × ℕ → ℕ × ℕ × ℕ
  | (X, Y, Z) =>
    let h := subMod p (gx * Z * Z) X
    let r := subMod p (gy * Z * Z * Z) Y
    let v := X * h * h % p
    let x := subMod p (r * r) (h * h * h + 2 * v)
    (x, subMod p (r * subMod p v x) (Y * h * h * h), Z * h % p)

/-- A multiple of a pair, by its bits from the highest: as many as are given. -/
def jacMul (p gx gy : ℕ) : ℕ → ℕ → ℕ × ℕ × ℕ
  | 0, _ => (gx, gy, 1)
  | bits + 1, k =>
    if k ≤ 1 then (gx, gy, 1)
    else if k % 2 = 1 then jacAdd p gx gy (jacDouble p (jacMul p gx gy bits (k / 2)))
    else jacDouble p (jacMul p gx gy bits (k / 2))

/-- A triple with the pair's first coordinate and the opposite of its second. -/
def IsOpposite (p gx gy : ℕ) (t : ℕ × ℕ × ℕ) : Prop :=
  t.2.2 % p ≠ 0 ∧ t.1 % p = gx * t.2.2 ^ 2 % p ∧ (t.2.1 + gy * t.2.2 ^ 3) % p = 0

instance (p gx gy : ℕ) (t : ℕ × ℕ × ℕ) : Decidable (IsOpposite p gx gy t) :=
  inferInstanceAs (Decidable (t.2.2 % p ≠ 0 ∧ t.1 % p = gx * t.2.2 ^ 2 % p ∧
    (t.2.1 + gy * t.2.2 ^ 3) % p = 0))

/-- The third coordinate of a double, or of a sum, is not zero where that of the triple is. -/
theorem jacDouble_ne_zero (hz : ((jacDouble p t).2.2 : ZMod p) ≠ 0) : (t.2.2 : ZMod p) ≠ 0 := by
  obtain ⟨X, Y, Z⟩ := t
  simp only [jacDouble, ZMod.natCast_mod, Nat.cast_mul] at hz
  exact right_ne_zero_of_mul hz

theorem jacAdd_ne_zero (hz : ((jacAdd p gx gy t).2.2 : ZMod p) ≠ 0) : (t.2.2 : ZMod p) ≠ 0 := by
  obtain ⟨X, Y, Z⟩ := t
  simp only [jacAdd, ZMod.natCast_mod, Nat.cast_mul] at hz
  exact left_ne_zero_of_mul hz

variable [Fact p.Prime] {b : ZMod p} {P G : (shortCurve b).Point}

/-- A triple stands for a point: its first coordinates are over the square and the cube of the third. -/
def Represents (t : ℕ × ℕ × ℕ) (P : (shortCurve b).Point) : Prop :=
  affine P = some ((t.1 : ZMod p) / (t.2.2 : ZMod p) ^ 2, (t.2.1 : ZMod p) / (t.2.2 : ZMod p) ^ 3)

theorem cast_subMod (a c : ℕ) : (subMod p a c : ZMod p) = a - c := by
  have hle : c % p ≤ p := (Nat.mod_lt c (Fact.out (p := p.Prime)).pos).le
  rw [subMod, ZMod.natCast_mod, Nat.cast_add, Nat.cast_sub hle, ZMod.natCast_self, ZMod.natCast_mod,
    zero_sub, sub_eq_add_neg]

theorem represents_jacDouble (h : Represents t P) (hz : ((jacDouble p t).2.2 : ZMod p) ≠ 0) :
    Represents (jacDouble p t) (P + P) := by
  obtain ⟨X, Y, Z⟩ := t
  simp only [jacDouble, ZMod.natCast_mod, Nat.cast_mul, Nat.cast_ofNat] at hz
  have hZ : (Z : ZMod p) ≠ 0 := right_ne_zero_of_mul hz
  have hY : (Y : ZMod p) ≠ 0 := right_ne_zero_of_mul (left_ne_zero_of_mul hz)
  have htwo : (2 : ZMod p) ≠ 0 := left_ne_zero_of_mul (left_ne_zero_of_mul hz)
  have hdouble : ¬ ((X : ZMod p) / (Z : ZMod p) ^ 2 = X / (Z : ZMod p) ^ 2 ∧
      (Y : ZMod p) / (Z : ZMod p) ^ 3 + Y / (Z : ZMod p) ^ 3 = 0) := by
    rintro ⟨-, hsum⟩
    rw [← two_mul] at hsum
    exact mul_ne_zero htwo (div_ne_zero hY (pow_ne_zero 3 hZ)) hsum
  rw [Represents] at h ⊢
  rw [affine_add, h, affineAdd, if_neg hdouble, lineSlope, if_pos ⟨rfl, rfl⟩, onLine]
  simp only [jacDouble, cast_subMod, ZMod.natCast_mod, Nat.cast_mul, Nat.cast_ofNat]
  congr 2
  · field_simp
    ring
  · field_simp
    ring

theorem represents_jacAdd (h : Represents t P) (hG : affine G = some ((gx : ZMod p), (gy : ZMod p)))
    (hz : ((jacAdd p gx gy t).2.2 : ZMod p) ≠ 0) : Represents (jacAdd p gx gy t) (P + G) := by
  obtain ⟨X, Y, Z⟩ := t
  simp only [jacAdd, cast_subMod, ZMod.natCast_mod, Nat.cast_mul] at hz
  have hZ : (Z : ZMod p) ≠ 0 := left_ne_zero_of_mul hz
  have hH : (gx : ZMod p) * Z * Z - X ≠ 0 := right_ne_zero_of_mul hz
  -- the pair, by its differences from the triple
  have hgx : (gx : ZMod p) = ((gx * Z * Z - X) + X) / (Z : ZMod p) ^ 2 := by
    rw [sub_add_cancel, eq_div_iff (pow_ne_zero 2 hZ)]
    ring
  have hgy : (gy : ZMod p) = ((gy * Z * Z * Z - Y) + Y) / (Z : ZMod p) ^ 3 := by
    rw [sub_add_cancel, eq_div_iff (pow_ne_zero 3 hZ)]
    ring
  have hx : (X : ZMod p) / (Z : ZMod p) ^ 2 ≠ gx := by
    intro hx
    rw [hgx, div_left_inj' (pow_ne_zero 2 hZ), right_eq_add] at hx
    exact hH hx
  rw [Represents] at h ⊢
  rw [affine_add, h, hG, affineAdd, if_neg fun hsame => hx hsame.1, lineSlope,
    if_neg fun hsame => hx hsame.1, hgx, hgy, ← div_eq_mul_inv, chord_of_differences hZ hH]
  simp only [jacAdd, cast_subMod, ZMod.natCast_mod, Nat.cast_mul, Nat.cast_add, Nat.cast_ofNat]

/-- **A multiple by its bits**: where the triple it ends at is not at infinity, it stands for the
multiple of the point. -/
theorem represents_jacMul (hG : affine G = some ((gx : ZMod p), (gy : ZMod p))) {bits k : ℕ}
    (hk : 0 < k) (hbits : k < 2 ^ (bits + 1)) (hz : ((jacMul p gx gy bits k).2.2 : ZMod p) ≠ 0) :
    Represents (jacMul p gx gy bits k) (k • G) := by
  have hone : Represents (gx, gy, 1) ((1 : ℕ) • G) := by
    rw [Represents, one_nsmul, hG, Nat.cast_one, one_pow, one_pow, div_one, div_one]
  induction bits generalizing k with
  | zero =>
    obtain rfl : k = 1 := by omega
    exact hone
  | succ bits ih =>
    have hhalf : k / 2 < 2 ^ (bits + 1) := by
      rw [pow_succ] at hbits
      omega
    rw [jacMul] at hz ⊢
    by_cases hle : k ≤ 1
    · obtain rfl : k = 1 := by omega
      rw [if_pos hle]
      exact hone
    · have hpos : 0 < k / 2 := by omega
      rw [if_neg hle] at hz ⊢
      by_cases hodd : k % 2 = 1
      · rw [if_pos hodd] at hz ⊢
        have hz' := jacAdd_ne_zero hz
        have hdouble := represents_jacDouble (ih hpos hhalf (jacDouble_ne_zero hz')) hz'
        have hsum : k • G = (k / 2) • G + (k / 2) • G + G := by
          rw [← add_nsmul, ← succ_nsmul]
          congr 1
          omega
        rw [hsum]
        exact represents_jacAdd hdouble hG hz
      · rw [if_neg hodd] at hz ⊢
        have hsum : k • G = (k / 2) • G + (k / 2) • G := by
          rw [← add_nsmul]
          congr 1
          omega
        rw [hsum]
        exact represents_jacDouble (ih hpos hhalf (jacDouble_ne_zero hz)) hz

/-- **A multiple that is opposite to its point**, as its triple shows. -/
theorem nsmul_eq_neg (hG : affine G = some ((gx : ZMod p), (gy : ZMod p))) {bits k : ℕ}
    (hk : 0 < k) (hbits : k < 2 ^ (bits + 1)) (h : IsOpposite p gx gy (jacMul p gx gy bits k)) :
    k • G = -G := by
  obtain ⟨hz, hx, hy⟩ := h
  have hZ : ((jacMul p gx gy bits k).2.2 : ZMod p) ≠ 0 := by
    rw [Ne, ZMod.natCast_eq_zero_iff, Nat.dvd_iff_mod_eq_zero]
    exact hz
  have hX : ((jacMul p gx gy bits k).1 : ZMod p) = gx * ((jacMul p gx gy bits k).2.2 : ZMod p) ^ 2 := by
    exact_mod_cast (ZMod.natCast_eq_natCast_iff' _ _ _).mpr hx
  have hY : ((jacMul p gx gy bits k).2.1 : ZMod p) +
      gy * ((jacMul p gx gy bits k).2.2 : ZMod p) ^ 3 = 0 := by
    exact_mod_cast (ZMod.natCast_eq_zero_iff _ _).mpr (Nat.dvd_of_mod_eq_zero hy)
  refine affine_injective ?_
  rw [affine_neg hG, represents_jacMul hG hk hbits hZ, hX, eq_neg_of_add_eq_zero_left hY,
    mul_div_cancel_right₀ _ (pow_ne_zero 2 hZ), ← neg_mul, mul_div_cancel_right₀ _ (pow_ne_zero 3 hZ)]

end Ladder

/-! ### Signatures -/

section Signature

variable {K V : Type} [Field K] [AddCommGroup V] [Module K V] {z r s d k : K} {G R Q : V}

/-- A key that a signature recovers, when its parts are scalars: `r • Q = s • R - z • G`. -/
def Recovers (z r s : K) (G R Q : V) : Prop := r • Q = s • R - z • G

/-- The one key a signature recovers. -/
theorem recovers_iff (hr : r ≠ 0) : Recovers z r s G R Q ↔ Q = r⁻¹ • (s • R + -(z • G)) := by
  rw [Recovers, ← sub_eq_add_neg]
  constructor
  · intro h
    rw [← h, smul_smul, inv_mul_cancel₀ hr, one_smul]
  · intro h
    rw [h, smul_smul, mul_inv_cancel₀ hr, one_smul]

/-- **A signature recovers its key**: `s` was chosen with `s * k = z + r * d`. -/
theorem recovers_of_sign (h : s * k = z + r * d) : Recovers z r s G (k • G) (d • G) := by
  rw [Recovers, smul_smul, smul_smul, h, add_smul, add_sub_cancel_left]

/-- **A recovered key verifies** the signature: the point it was made with is found again. -/
theorem Recovers.verifies (h : Recovers z r s G R Q) (hs : s ≠ 0) :
    (z * s⁻¹) • G + (r * s⁻¹) • Q = R := by
  rw [Recovers] at h
  rw [mul_comm z, mul_comm r, mul_smul, mul_smul, ← smul_add, h, add_sub_cancel, smul_smul,
    inv_mul_cancel₀ hs, one_smul]

end Signature

end Veridex.Lib.Curve
