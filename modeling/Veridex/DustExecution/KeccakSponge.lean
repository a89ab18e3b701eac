import Veridex.DustExecution.SigningCompiler
import Veridex.Lib.Keccak

/-!
# The hash is Keccak-256 (`keccak256`, `order_hash_from_typed_data`, `signing_compiler.py`)

`keccak256` works on twenty-five numbers. `Holds` relates them to a cube of bits: they are five by five,
each below `2 ^ 64`, and their binary digits are the bits of the cube. Each step of a round keeps the
relation with the step of the specification, so whole rounds do, and whole messages.

Results: `holds_keccakRound` (one round), `bits_padded`, `keccak256_sponge`.
-/

namespace Veridex.DustExecution

open Veridex.Py Veridex.Lib

/-! ## Lanes -/

/-- Five by five lanes hold the bits of a cube. -/
structure Holds (a : List (List ℕ)) (s : Keccak.Cube) : Prop where
  square : a = lanes (lane a)
  lt : ∀ x y, lane a x y < 2 ^ 64
  bit : ∀ (x y : Fin 5) (z : Fin 64), (lane a x y).testBit z = s x y z

theorem lane_lanes {f : ℕ → ℕ → ℕ} {x y : ℕ} (hx : x < 5) (hy : y < 5) :
    lane (lanes f) x y = f x y := by
  simp [lane, lanes, List.getD_eq_getElem?_getD, hx, hy]

theorem lane_of_le {a : List (List ℕ)} {x y : ℕ} (ha : a = lanes (lane a)) (h : 5 ≤ x ∨ 5 ≤ y) :
    lane a x y = 0 := by
  rw [ha]
  by_cases hx : x < 5
  · have hy := h.resolve_left (by omega)
    simp [lane, lanes, List.getD_eq_getElem?_getD, hx, not_lt.mpr hy]
  · simp [lane, lanes, List.getD_eq_getElem?_getD, hx]

theorem lanes_congr {f g : ℕ → ℕ → ℕ} (h : ∀ x < 5, ∀ y < 5, f x y = g x y) : lanes f = lanes g := by
  unfold lanes
  refine List.map_congr_left fun x hx => List.map_congr_left fun y hy => ?_
  exact h x (List.mem_range.mp hx) y (List.mem_range.mp hy)

theorem square_lanes (f : ℕ → ℕ → ℕ) : lanes f = lanes (lane (lanes f)) :=
  lanes_congr fun _ hx _ hy => (lane_lanes hx hy).symm

/-- Lanes below `2 ^ 64` with the bits of a cube hold it. -/
theorem holds_lanes {f : ℕ → ℕ → ℕ} {s : Keccak.Cube} (hlt : ∀ x < 5, ∀ y < 5, f x y < 2 ^ 64)
    (hbit : ∀ (x y : Fin 5) (z : Fin 64), (f x y).testBit z = s x y z) : Holds (lanes f) s where
  square := square_lanes f
  lt x y := by
    by_cases h : x < 5 ∧ y < 5
    · rw [lane_lanes h.1 h.2]
      exact hlt x h.1 y h.2
    · rw [lane_of_le (square_lanes f) (by omega)]
      positivity
  bit x y z := by
    rw [lane_lanes x.isLt y.isLt]
    exact hbit x y z

/-- A lane that is set, and the others. -/
theorem setLane_lanes {f : ℕ → ℕ → ℕ} {x y v : ℕ} (hx : x < 5) :
    setLane (lanes f) x y v = lanes fun x' y' => if x' = x ∧ y' = y then v else f x' y' := by
  have hrow : (lanes f).getD x [] = (List.range 5).map (f x) := by
    simp [lanes, List.getD_eq_getElem?_getD, hx]
  rw [setLane, hrow]
  refine List.ext_getElem (by simp [lanes]) fun i hi hi' => ?_
  rw [List.getElem_set]
  split_ifs with hi
  · subst hi
    refine List.ext_getElem (by simp [lanes]) fun j hj hj' => ?_
    simp [lanes, List.getElem_set, eq_comm]
  · simp [lanes, Ne.symm hi]

theorem setLane_eq {b : List (List ℕ)} {x y v : ℕ} (hb : b = lanes (lane b)) (hx : x < 5) :
    setLane b x y v = lanes fun x' y' => if x' = x ∧ y' = y then v else lane b x' y' := by
  conv_lhs => rw [hb, setLane_lanes hx]

theorem square_setLane {b : List (List ℕ)} {x y v : ℕ} (hb : b = lanes (lane b)) (hx : x < 5) :
    setLane b x y v = lanes (lane (setLane b x y v)) := by
  rw [setLane_eq hb hx]
  exact square_lanes _

theorem lane_setLane {b : List (List ℕ)} {x y x' y' v : ℕ} (hb : b = lanes (lane b)) (hx : x < 5)
    (hx' : x' < 5) (hy' : y' < 5) :
    lane (setLane b x y v) x' y' = if x' = x ∧ y' = y then v else lane b x' y' := by
  rw [setLane_eq hb hx, lane_lanes hx' hy']

section Writes

variable {ι : Type} (px py value : ι → ℕ)

/-- The lanes after some are set, one after the other. -/
def written (is : List ι) (b : List (List ℕ)) : List (List ℕ) :=
  is.foldl (fun b i => setLane b (px i) (py i) (value i)) b

variable {px py value}

theorem square_written : ∀ {is : List ι} {b : List (List ℕ)}, b = lanes (lane b) →
    (∀ i ∈ is, px i < 5) → written px py value is b = lanes (lane (written px py value is b))
  | [], _, hb, _ => hb
  | i :: is, b, hb, h => by
    refine square_written (b := setLane b (px i) (py i) (value i))
      (square_setLane hb (h i List.mem_cons_self)) fun j hj => h j (List.mem_cons_of_mem i hj)

/-- A lane that is not set stays. -/
theorem lane_written_of_ne {x y : ℕ} (hx : x < 5) (hy : y < 5) : ∀ {is : List ι} {b : List (List ℕ)},
    b = lanes (lane b) → (∀ i ∈ is, px i < 5) → (∀ i ∈ is, (px i, py i) ≠ (x, y)) →
    lane (written px py value is b) x y = lane b x y
  | [], _, _, _, _ => rfl
  | i :: is, b, hb, h, hne => by
    have hi := h i List.mem_cons_self
    have hfirst : ¬ (x = px i ∧ y = py i) := fun heq =>
      hne i List.mem_cons_self (Prod.ext heq.1.symm heq.2.symm)
    refine (lane_written_of_ne hx hy (b := setLane b (px i) (py i) (value i)) (square_setLane hb hi)
      (fun j hj => h j (List.mem_cons_of_mem i hj))
      fun j hj => hne j (List.mem_cons_of_mem i hj)).trans ?_
    rw [lane_setLane hb hi hx hy, if_neg hfirst]

variable (value) in
/-- Where no lane is set twice, each holds what it was set to. -/
theorem lane_written {is : List ι} {b : List (List ℕ)} (hb : b = lanes (lane b))
    (h : ∀ i ∈ is, px i < 5 ∧ py i < 5) (hnodup : (is.map fun i => (px i, py i)).Nodup) {i : ι}
    (hi : i ∈ is) : lane (written px py value is b) (px i) (py i) = value i := by
  induction is generalizing b with
  | nil => simp at hi
  | cons j is ih =>
    have hsquare := square_setLane (y := py j) (v := value j) hb (h j List.mem_cons_self).1
    have hlater (k : ι) (hk : k ∈ is) := h k (List.mem_cons_of_mem j hk)
    rw [List.map_cons, List.nodup_cons] at hnodup
    rcases List.mem_cons.mp hi with rfl | hi
    · obtain ⟨hx, hy⟩ := h i List.mem_cons_self
      refine (lane_written_of_ne hx hy hsquare (fun k hk => (hlater k hk).1) ?_).trans ?_
      · exact fun k hk heq => hnodup.1 (List.mem_map.mpr ⟨k, hk, heq⟩)
      · rw [lane_setLane hb hx hx hy, if_pos ⟨rfl, rfl⟩]
    · exact ih hsquare hlater hnodup.2 hi

end Writes

/-! ## The steps of a round -/

theorem rotl64_lt (v n : ℕ) : rotl64 v n < 2 ^ 64 := by
  unfold rotl64 mask64
  rw [Nat.and_two_pow_sub_one_eq_mod]
  exact Nat.mod_lt _ (by positivity)

/-- **A rotation** moves the bits up, and around. -/
theorem testBit_rotl64 {v n : ℕ} (hv : v < 2 ^ 64) (hn : n < 64) (z : Fin 64) :
    (rotl64 v n).testBit z = v.testBit (z - Fin.ofNat 64 n : Fin 64) := by
  have hhigh (k : ℕ) (hk : 64 ≤ k) : v.testBit k = false :=
    Nat.testBit_lt_two_pow (hv.trans_le (Nat.pow_le_pow_right (by decide) hk))
  have hsub : ((z - Fin.ofNat 64 n : Fin 64) : ℕ) = (64 - n + z) % 64 := by
    rw [Fin.sub_def]
    simp [Fin.ofNat, Nat.mod_eq_of_lt hn]
  have hz := z.isLt
  unfold rotl64 mask64
  rw [Nat.testBit_and, Nat.testBit_or, Nat.testBit_shiftLeft, Nat.testBit_shiftRight,
    Nat.testBit_two_pow_sub_one, hsub]
  by_cases hle : n ≤ z
  · have hmod : (64 - n + z.val) % 64 = z - n := by omega
    simp [hle, hmod, hhigh (64 - n + z) (by omega)]
  · have hmod : (64 - n + z.val) % 64 = 64 - n + z := by omega
    simp [hle, hmod]

section Round

variable {a : List (List ℕ)} {s : Keccak.Cube}

theorem getD_columns {x : ℕ} (hx : x < 5) : (columns a).getD x 0 =
    lane a x 0 ^^^ lane a x 1 ^^^ lane a x 2 ^^^ lane a x 3 ^^^ lane a x 4 := by
  simp [columns, List.getD_eq_getElem?_getD, hx]

theorem getD_effects {c : List ℕ} {x : ℕ} (hx : x < 5) : (effects c).getD x 0 =
    c.getD ((x + 4) % 5) 0 ^^^ rotl64 (c.getD ((x + 1) % 5) 0) 1 := by
  simp [effects, List.getD_eq_getElem?_getD, hx]

theorem columns_lt (h : Holds a s) (x : ℕ) : (columns a).getD x 0 < 2 ^ 64 := by
  by_cases hx : x < 5
  · rw [getD_columns hx]
    refine Nat.xor_lt_two_pow (Nat.xor_lt_two_pow (Nat.xor_lt_two_pow (Nat.xor_lt_two_pow ?_ ?_) ?_)
      ?_) ?_ <;> exact h.lt _ _
  · simp [columns, List.getD_eq_getElem?_getD, hx]

theorem effects_lt (h : Holds a s) (x : ℕ) : (effects (columns a)).getD x 0 < 2 ^ 64 := by
  by_cases hx : x < 5
  · rw [getD_effects hx]
    exact Nat.xor_lt_two_pow (columns_lt h _) (rotl64_lt _ _)
  · simp [effects, List.getD_eq_getElem?_getD, hx]

theorem testBit_columns (h : Holds a s) (x : Fin 5) (z : Fin 64) :
    ((columns a).getD x 0).testBit z = Keccak.parity s x z := by
  have hbit (y : Fin 5) := h.bit x y z
  rw [getD_columns x.isLt]
  simp only [Nat.testBit_xor, Keccak.parity]
  rw [← hbit 0, ← hbit 1, ← hbit 2, ← hbit 3, ← hbit 4]
  rfl

theorem holds_mixed (h : Holds a s) : Holds (mixed a (effects (columns a))) (Keccak.theta s) := by
  refine holds_lanes (fun x _ y _ => Nat.xor_lt_two_pow (h.lt x y) (effects_lt h x)) fun x y z => ?_
  have hpred : ((x - 1 : Fin 5) : ℕ) = (x + 4) % 5 := by
    revert x
    decide
  have hsucc : ((x + 1 : Fin 5) : ℕ) = (x + 1) % 5 := by
    revert x
    decide
  rw [getD_effects x.isLt, Nat.testBit_xor, Nat.testBit_xor, h.bit, ← hpred, ← hsucc,
    testBit_columns h, testBit_rotl64 (columns_lt h _) (by decide), testBit_columns h,
    Keccak.theta, Bool.xor_assoc]
  rfl

/-- The places of the lanes. -/
def places : List (ℕ × ℕ) := (List.range 5).flatMap fun x => (List.range 5).map fun y => (x, y)

theorem moved_eq : moved a = written Prod.snd (fun p => (2 * p.1 + 3 * p.2) % 5)
    (fun p => rotl64 (lane a p.1 p.2) (lane keccakRot p.1 p.2)) places (lanes fun _ _ => 0) := rfl

/-- Where a lane is moved to, rotated. -/
theorem lane_moved (x y : Fin 5) : lane (moved a) y ((2 * x + 3 * y) % 5) =
    rotl64 (lane a x y) (lane keccakRot x y) := by
  have hmem : (x.val, y.val) ∈ places := by
    revert x y
    decide
  have hplaces : ∀ p ∈ places, p.2 < 5 ∧ (2 * p.1 + 3 * p.2) % 5 < 5 := by decide
  have hnodup : (places.map fun p => (p.2, (2 * p.1 + 3 * p.2) % 5)).Nodup := by decide
  rw [moved_eq]
  have hwritten := lane_written (fun p => rotl64 (lane a p.1 p.2) (lane keccakRot p.1 p.2))
    (square_lanes fun _ _ => 0) hplaces hnodup hmem
  exact hwritten

theorem square_moved : moved a = lanes (lane (moved a)) :=
  square_written (square_lanes _) (by decide)

/-- The table of rotations is the walk of the specification. -/
theorem keccakRot_offset (x y : Fin 5) :
    lane keccakRot x y < 64 ∧ Fin.ofNat 64 (lane keccakRot x y) = Fin.ofNat 64 (Keccak.offset x y) := by
  revert x y
  decide +kernel

/-- **The lanes are rotated and moved** as by `rho` and `pi`. -/
theorem holds_moved (h : Holds a s) : Holds (moved a) (Keccak.pi (Keccak.rho s)) := by
  -- every place is the one that a lane is moved to
  have hplace (x y : Fin 5) : ∃ x' : Fin 5, 2 * x' + 3 * x = y :=
    ⟨x + 3 * y, by revert x y; decide⟩
  have hval (x y : Fin 5) : ((2 * x + 3 * y : Fin 5) : ℕ) = (2 * x + 3 * y) % 5 := by
    revert x y
    decide
  have hlane (x y : Fin 5) : ∃ x' : Fin 5, 2 * x' + 3 * x = y ∧
      lane (moved a) x y = rotl64 (lane a x' x) (lane keccakRot x' x) := by
    obtain ⟨x', rfl⟩ := hplace x y
    exact ⟨x', rfl, by rw [hval, lane_moved]⟩
  rw [square_moved]
  refine holds_lanes (fun x hx y hy => ?_) fun x y z => ?_
  · obtain ⟨x', -, hmoved⟩ := hlane ⟨x, hx⟩ ⟨y, hy⟩
    rw [hmoved]
    exact rotl64_lt _ _
  · obtain ⟨x', rfl, hmoved⟩ := hlane x y
    obtain ⟨hlt, hoffset⟩ := keccakRot_offset x' x
    rw [hmoved, testBit_rotl64 (h.lt _ _) hlt, h.bit, hoffset, Keccak.pi_apply]
    rfl

theorem holds_combined (h : Holds a s) : Holds (combined a) (Keccak.chi s) := by
  refine holds_lanes (fun x _ y _ => ?_) fun x y z => ?_
  · refine Nat.xor_lt_two_pow (h.lt x y) (Nat.lt_pow_two_of_testBit _ fun i hi => ?_)
    rw [Nat.testBit_ldiff, Nat.testBit_lt_two_pow ((h.lt _ _).trans_le
      (Nat.pow_le_pow_right (by decide) hi)), Bool.false_and]
  · have hone : ((x + 1 : Fin 5) : ℕ) = (x + 1) % 5 := by
      revert x
      decide
    have htwo : ((x + 2 : Fin 5) : ℕ) = (x + 2) % 5 := by
      revert x
      decide
    rw [Nat.testBit_xor, Nat.testBit_ldiff, ← hone, ← htwo, h.bit, h.bit, h.bit, Bool.and_comm]
    rfl

/-- **A round** with the constant of the specification. -/
theorem holds_keccakRound {i : ℕ} {rc : ℕ} (h : Holds a s) (hrc : rc < 2 ^ 64)
    (hbit : ∀ z : Fin 64, rc.testBit z = Keccak.roundConstant i z) :
    Holds (keccakRound a rc) (Keccak.round s i) := by
  have hcombined := holds_combined (holds_moved (holds_mixed h))
  generalize hb : combined (moved (mixed a (effects (columns a)))) = b at hcombined
  have hround : keccakRound a rc = setLane b 0 0 (lane b 0 0 ^^^ rc) := by
    rw [keccakRound, hb]
  rw [hround, setLane_eq hcombined.square (by decide)]
  refine holds_lanes (fun x _ y _ => ?_) fun x y z => ?_
  · split_ifs
    · exact Nat.xor_lt_two_pow (hcombined.lt 0 0) hrc
    · exact hcombined.lt x y
  · rw [Keccak.round, Keccak.iota]
    by_cases hzero : x = 0 ∧ y = 0
    · obtain ⟨rfl, rfl⟩ := hzero
      have hlane := hcombined.bit 0 0 z
      rw [if_pos ⟨rfl, rfl⟩, Nat.testBit_xor, hbit, ← hlane]
      simp
    · have hne : ¬ ((x : ℕ) = 0 ∧ (y : ℕ) = 0) := fun hval =>
        hzero ⟨Fin.ext hval.1, Fin.ext hval.2⟩
      have hfalse : (decide (x = 0) && decide (y = 0)) = false := by
        rw [← Bool.decide_and]
        exact decide_eq_false hzero
      rw [if_neg hne, hcombined.bit, hfalse, Bool.false_and, Bool.xor_false]

/-- The table of constants is what the shift register puts out. -/
theorem keccakRc_bit (i : Fin 24) : keccakRc.getD i 0 < 2 ^ 64 ∧
    ∀ z : Fin 64, (keccakRc.getD i 0).testBit z = Keccak.roundConstant i z := by
  revert i
  decide +kernel

/-- The lanes after some rounds. -/
theorem holds_rounds (h : Holds a s) {k : ℕ} (hk : k ≤ 24) :
    Holds ((keccakRc.take k).foldl keccakRound a) ((List.range k).foldl Keccak.round s) := by
  induction k with
  | zero => exact h
  | succ k ih =>
    have hlength : k < keccakRc.length := hk
    have hget : keccakRc[k] = keccakRc.getD k 0 := by
      rw [List.getD_eq_getElem?_getD, List.getElem?_eq_getElem hlength, Option.getD_some]
    obtain ⟨hlt, hbit⟩ := keccakRc_bit ⟨k, hk⟩
    rw [List.take_succ_eq_append_getElem hlength, List.foldl_append, List.range_succ,
      List.foldl_append, hget]
    exact holds_keccakRound (ih (by omega)) hlt hbit

end Round

/-! ## Blocks -/

/-- A number read from bytes, the lowest first, has their bits. -/
theorem testBit_fromBytes (data : List UInt8) (z : ℕ) :
    (fromBytes data.reverse).testBit z = (Keccak.bits data).getD z false := by
  rw [Keccak.getD_bits]
  induction data generalizing z with
  | nil => simp [fromBytes]
  | cons byte data ih =>
    have hsnoc : fromBytes (byte :: data).reverse = 2 ^ 8 * fromBytes data.reverse + byte.toNat := by
      simp [fromBytes, List.foldl_append]
    rw [hsnoc, Nat.testBit_two_pow_mul_add _ byte.toNat_lt]
    by_cases hz : z < 8
    · rw [if_pos hz, Nat.div_eq_of_lt hz, Nat.mod_eq_of_lt hz]
      rfl
    · have hdiv : z / 8 = (z - 8) / 8 + 1 := by omega
      have hmod : z % 8 = (z - 8) % 8 := by omega
      rw [if_neg hz, ih, hdiv, hmod, List.getD_cons_succ]

/-- The bits of a word of a block. -/
theorem testBit_word (block : List UInt8) (i z : ℕ) :
    (fromBytes ((block.drop (8 * i)).take 8).reverse).testBit z =
      (decide (z < 64) && (Keccak.bits block).getD (64 * i + z) false) := by
  rw [testBit_fromBytes, Keccak.bits_take, Keccak.bits_drop, List.getD_eq_getElem?_getD,
    List.getElem?_take, List.getD_eq_getElem?_getD]
  by_cases hz : z < 64
  · have hindex : 8 * (8 * i) + z = 64 * i + z := by omega
    simp [hz, List.getElem?_drop, hindex]
  · simp [hz]

/-- The lanes take the words of a block one after the other. -/
theorem taken_eq (a : List (List ℕ)) (ha : a = lanes (lane a)) (block : List UInt8) :
    taken a block = written (· % 5) (· / 5) (fun i => lane a (i % 5) (i / 5) ^^^
      fromBytes ((block.drop (8 * i)).take 8).reverse) (List.range 17) a := by
  have hfirst (k : ℕ) (hk : k ≤ 17) : (List.range k).foldl (fun a i => setLane a (i % 5) (i / 5)
        (lane a (i % 5) (i / 5) ^^^ fromBytes ((block.drop (8 * i)).take 8).reverse)) a =
      written (· % 5) (· / 5) (fun i => lane a (i % 5) (i / 5) ^^^
        fromBytes ((block.drop (8 * i)).take 8).reverse) (List.range k) a := by
    induction k with
    | zero => rfl
    | succ k ih =>
      have hstays : lane (written (· % 5) (· / 5) (fun i => lane a (i % 5) (i / 5) ^^^
          fromBytes ((block.drop (8 * i)).take 8).reverse) (List.range k) a) (k % 5) (k / 5) =
          lane a (k % 5) (k / 5) := by
        refine lane_written_of_ne (by omega) (by omega) ha (fun i _ => Nat.mod_lt _ (by decide))
          fun i hi heq => ?_
        obtain ⟨hmod, hdiv⟩ := Prod.mk.inj heq
        have hlt := List.mem_range.mp hi
        omega
      rw [List.range_succ, List.foldl_append, ih (by omega), List.foldl_cons, List.foldl_nil, hstays,
        written, written, List.foldl_append]
      rfl
  exact hfirst 17 le_rfl

/-- **A block is taken** into the outer part of the state. -/
theorem holds_taken {a : List (List ℕ)} {s : Fin 1600 → Bool} (h : Holds a (Keccak.cube s))
    {block : List UInt8} (hblock : block.length = keccakRate) :
    Holds (taken a block) (Keccak.cube fun i => s i ^^ (Keccak.bits block).getD i false) := by
  have hplaces : ∀ i ∈ List.range 17, i % 5 < 5 ∧ i / 5 < 5 := by decide
  have hnodup : ((List.range 17).map fun i => (i % 5, i / 5)).Nodup := by decide
  have hlane (x y : Fin 5) : lane (taken a block) x y = lane a x y ^^^
      if 5 * y.val + x < 17 then
        fromBytes ((block.drop (8 * (5 * y + x))).take 8).reverse else 0 := by
    rw [taken_eq a h.square block]
    split_ifs with hlt
    · have hmod : (5 * y.val + x) % 5 = x := by omega
      have hdiv : (5 * y.val + x) / 5 = y := by omega
      have hhit := lane_written (fun i => lane a (i % 5) (i / 5) ^^^
        fromBytes ((block.drop (8 * i)).take 8).reverse) h.square hplaces hnodup
        (List.mem_range.mpr hlt)
      simpa only [hmod, hdiv] using hhit
    · rw [Nat.xor_zero]
      refine lane_written_of_ne x.isLt y.isLt h.square (fun i _ => Nat.mod_lt _ (by decide))
        fun i hi heq => ?_
      obtain ⟨hmod, hdiv⟩ := Prod.mk.inj heq
      have hlt' := List.mem_range.mp hi
      omega
  have hsquare : taken a block = lanes (lane (taken a block)) := by
    rw [taken_eq a h.square block]
    exact square_written h.square fun i _ => Nat.mod_lt _ (by decide)
  rw [hsquare]
  refine holds_lanes (fun x hx y hy => ?_) fun x y z => ?_
  · refine (hlane ⟨x, hx⟩ ⟨y, hy⟩).trans_lt (Nat.xor_lt_two_pow (h.lt x y) ?_)
    split_ifs
    · refine Nat.lt_pow_two_of_testBit _ fun z hz => ?_
      rw [testBit_word, decide_eq_false (not_lt.mpr hz), Bool.false_and]
    · positivity
  · rw [hlane, Nat.testBit_xor, h.bit, Keccak.cube, Keccak.cube]
    congr 1
    split_ifs with hlt
    · rw [testBit_word, decide_eq_true z.isLt, Bool.true_and]
    · rw [List.getD_eq_default _ _ (by rw [Keccak.length_bits, hblock, keccakRate]; dsimp only; omega),
        Nat.zero_testBit]

/-! ## What is squeezed out -/

/-- The bits of a number, from its bytes. -/
theorem bits_littleBytes (k n : ℕ) :
    Keccak.bits (littleBytes k n) = (List.range (8 * k)).map n.testBit := by
  induction k generalizing n with
  | zero => rfl
  | succ k ih =>
    have hbyte : (UInt8.ofNat (n % 256)).toNat = n % 2 ^ 8 := by simp
    rw [littleBytes, Keccak.bits_cons, ih, hbyte, Nat.mul_succ, Nat.add_comm, List.range_add,
      List.map_append, List.map_map]
    congr 1
    · refine List.map_congr_left fun j hj => ?_
      rw [Nat.testBit_mod_two_pow, decide_eq_true (List.mem_range.mp hj), Bool.true_and]
    · refine List.map_congr_left fun j _ => ?_
      rw [Function.comp_apply, Nat.add_comm]
      exact (Nat.testBit_div_two_pow n j : (n / 2 ^ 8).testBit j = n.testBit (j + 8))

/-- Rows of one length, one after the other. -/
theorem flatMap_range {α : Type} (m n : ℕ) (f : ℕ → ℕ → α) :
    ((List.range m).flatMap fun i => (List.range n).map (f i)) =
      (List.range (m * n)).map fun k => f (k / n) (k % n) := by
  rcases Nat.eq_zero_or_pos n with rfl | hn
  · simp
  induction m with
  | zero => simp
  | succ m ih =>
    rw [List.range_succ, List.flatMap_append, ih, Nat.succ_mul, List.range_add, List.map_append,
      List.flatMap_singleton, List.map_map]
    refine congrArg _ (List.map_congr_left fun j hj => ?_)
    have hj := List.mem_range.mp hj
    rw [Function.comp_apply, Nat.mul_comm, Nat.mul_add_div hn, Nat.mul_add_mod, Nat.div_eq_of_lt hj,
      Nat.mod_eq_of_lt hj, Nat.add_zero]

/-- **The bytes of the lanes** are the state. -/
theorem bits_squeeze {a : List (List ℕ)} {s : Fin 1600 → Bool} (h : Holds a (Keccak.cube s)) :
    Keccak.bits (squeeze a) = List.ofFn s := by
  have hrow (y : ℕ) : Keccak.bits ((List.range 5).flatMap fun x => littleBytes 8 (lane a x y)) =
      (List.range 320).map fun k => (lane a (k / 64) y).testBit (k % 64) := by
    rw [Keccak.bits, List.flatMap_assoc]
    refine Eq.trans ?_ (flatMap_range 5 64 fun x z => (lane a x y).testBit z)
    exact List.flatMap_congr fun x _ => bits_littleBytes 8 _
  have hall : Keccak.bits (squeeze a) = (List.range 1600).map fun k =>
      (lane a (k % 320 / 64) (k / 320)).testBit (k % 320 % 64) := by
    rw [squeeze, Keccak.bits, List.flatMap_assoc]
    refine Eq.trans ?_ (flatMap_range 5 320 fun y k => (lane a (k / 64) y).testBit (k % 64))
    exact List.flatMap_congr fun y _ => hrow y
  have hlength : (List.range 1600).length = 1600 := List.length_range
  rw [hall]
  refine List.ext_getElem (by rw [List.length_map, hlength, List.length_ofFn]) fun k hk _ => ?_
  rw [List.length_map, List.length_range] at hk
  have hbit := h.bit ⟨k % 320 / 64, by omega⟩ ⟨k / 320, by omega⟩ ⟨k % 320 % 64, by omega⟩
  have hindex : 64 * (5 * (k / 320) + k % 320 / 64) + k % 320 % 64 = k := by omega
  rw [List.getElem_map, List.getElem_range, List.getElem_ofFn]
  refine hbit.trans ?_
  simp only [Keccak.cube, hindex]

/-! ## The padding -/

/-- **The padding** is `pad10*1`. -/
theorem bits_padded (data : List UInt8) :
    Keccak.bits (padded data) = Keccak.bits data ++ Keccak.pad 1088 (8 * data.length) := by
  unfold padded
  dsimp only
  generalize hq : (keccakRate - (data.length + 1) % keccakRate) % keccakRate = q
  have hzeros : (1088 - (8 * data.length + 2) % 1088) % 1088 = 8 * q + 6 := by
    rw [keccakRate] at hq
    omega
  rw [Keccak.pad, hzeros]
  cases q with
  | zero =>
    have hlast : (data ++ [1]).dropLast ++ [(data ++ [1]).getLastD 0 ^^^ 0x80] = data ++ [0x81] := by
      rw [List.dropLast_concat, List.getLastD_concat]
      rfl
    rw [List.replicate_zero, hlast, Keccak.bits_append]
    rfl
  | succ q =>
    have hsnoc : data ++ 1 :: List.replicate (q + 1) 0 = data ++ 1 :: List.replicate q 0 ++ [0] := by
      rw [List.replicate_succ']
      simp
    have hzero : (0 : UInt8) ^^^ 0x80 = 0x80 := by decide
    have hcount : 8 * (q + 1) + 6 = 7 + (8 * q + 7) := by omega
    rw [hsnoc, List.dropLast_concat, List.getLastD_concat, hzero, Keccak.bits_append,
      Keccak.bits_append, Keccak.bits_cons, Keccak.bits_replicate_zero, hcount, List.replicate_add,
      List.replicate_add]
    simp only [List.append_assoc, List.cons_append]
    rfl

theorem length_padded (data : List UInt8) : keccakRate ∣ (padded data).length := by
  have hlength : (padded data).length = data.length + 1 +
      (keccakRate - (data.length + 1) % keccakRate) % keccakRate := by
    simp [padded]
    omega
  rw [hlength, keccakRate]
  omega

/-! ## The hash -/

/-- The state of the specification after some blocks. -/
def stateAfter (data : List UInt8) (blocks : ℕ) : Fin 1600 → Bool :=
  (List.range blocks).foldl
    (fun s i => Keccak.absorb Keccak.keccakF s (Keccak.bits (blockAt (padded data) i))) fun _ => false

variable {data : List UInt8}

theorem length_blockAt {i : ℕ} (hi : i < (padded data).length / keccakRate) :
    (blockAt (padded data) i).length = keccakRate := by
  rw [Nat.lt_div_iff_mul_lt' (length_padded data)] at hi
  obtain ⟨blocks, hblocks⟩ := length_padded data
  rw [hblocks] at hi
  have hlt : i < blocks := Nat.lt_of_mul_lt_mul_left hi
  rw [blockAt, List.length_take, List.length_drop, hblocks, ← Nat.mul_sub]
  exact Nat.min_eq_left (Nat.le_mul_of_pos_right _ (by omega))

/-- **The lanes after some blocks** hold the state of the specification. -/
theorem holds_absorbed {blocks : ℕ} (h : blocks ≤ (padded data).length / keccakRate) :
    Holds (absorbed data blocks) (Keccak.cube (stateAfter data blocks)) := by
  induction blocks with
  | zero => exact holds_lanes (fun _ _ _ _ => by positivity) fun _ _ _ => Nat.zero_testBit _
  | succ blocks ih =>
    have htaken := holds_taken (ih (by omega)) (length_blockAt h)
    have hrounds := holds_rounds htaken (k := 24) le_rfl
    rw [absorbed, List.range_succ, List.foldl_append, stateAfter, List.range_succ, List.foldl_append]
    simp only [List.foldl_cons, List.foldl_nil]
    rw [Keccak.absorb, Keccak.keccakF, Keccak.cube_flat]
    exact hrounds

theorem bits_blockAt (data : List UInt8) (i : ℕ) :
    Keccak.bits (blockAt data i) = ((Keccak.bits data).drop (1088 * i)).take 1088 := by
  rw [blockAt, Keccak.bits_take, Keccak.bits_drop, keccakRate, ← Nat.mul_assoc]

/-- **The hash is Keccak-256.** -/
theorem bits_keccak256 (data : List UInt8) :
    Keccak.bits (keccak256 data) = Keccak.keccak 512 (Keccak.bits data) 256 := by
  have hfinal : Holds (finalLanes data) _ := holds_absorbed le_rfl
  have hblocks : Keccak.blocks 1088 (Keccak.bits (padded data)) =
      (List.range ((padded data).length / keccakRate)).map fun i =>
        Keccak.bits (blockAt (padded data) i) := by
    have hcount : (8 * (padded data).length) / 1088 = (padded data).length / keccakRate :=
      Nat.mul_div_mul_left _ 136 (by decide)
    rw [Keccak.blocks, Keccak.length_bits, hcount]
    exact List.map_congr_left fun i _ => (bits_blockAt _ i).symm
  have hstate : (Keccak.blocks 1088 (Keccak.bits (padded data))).foldl (Keccak.absorb Keccak.keccakF)
      (fun _ => false) = stateAfter data ((padded data).length / keccakRate) := by
    rw [hblocks, List.foldl_map, stateAfter]
  have hsqueeze (s : Fin 1600 → Bool) : Keccak.squeeze Keccak.keccakF 1088 s 256 =
      (List.ofFn s).take 256 := by
    have hone : List.range ((256 + (1088 - 1)) / 1088) = [0] := rfl
    rw [Keccak.squeeze, hone, List.flatMap_singleton, List.take_take, Function.iterate_zero, id_eq]
    rfl
  rw [keccak256, Keccak.bits_take, bits_squeeze hfinal, Keccak.keccak, Keccak.sponge,
    Keccak.length_bits, ← bits_padded, hstate, hsqueeze]

/-! ## No lane outgrows its word -/

/-- Each lane is below `2 ^ 64`. -/
def Fits (a : List (List ℕ)) : Prop := ∀ x y, lane a x y < 2 ^ 64

/-- The tables of a round are below `2 ^ 64`. -/
structure FitsRound (a : List (List ℕ)) : Prop where
  parities : ∀ x, (columns a).getD x 0 < 2 ^ 64
  changes : ∀ x, (effects (columns a)).getD x 0 < 2 ^ 64
  mixes : Fits (mixed a (effects (columns a)))
  moves : Fits (moved (mixed a (effects (columns a))))
  combines : Fits (combined (moved (mixed a (effects (columns a)))))

/-- The lanes within a block, after some rounds. -/
def atRound (data : List UInt8) (i k : ℕ) : List (List ℕ) :=
  (keccakRc.take k).foldl keccakRound (taken (absorbed data i) (blockAt (padded data) i))

/-- Every lane of a computation fits: between the blocks, and within each round. -/
structure LanesFit (data : List UInt8) : Prop where
  between : ∀ i ≤ (padded data).length / keccakRate, Fits (absorbed data i)
  rounds : ∀ i < (padded data).length / keccakRate, ∀ k ≤ 24, Fits (atRound data i k)
  within : ∀ i < (padded data).length / keccakRate, ∀ k < 24, FitsRound (atRound data i k)

theorem Holds.fitsRound {a : List (List ℕ)} {s : Keccak.Cube} (h : Holds a s) : FitsRound a where
  parities := columns_lt h
  changes := effects_lt h
  mixes := (holds_mixed h).lt
  moves := (holds_moved (holds_mixed h)).lt
  combines := (holds_combined (holds_moved (holds_mixed h))).lt

theorem lanesFit (data : List UInt8) : LanesFit data := by
  have hround {i k : ℕ} (hi : i < (padded data).length / keccakRate) (hk : k ≤ 24) :
      ∃ s, Holds (atRound data i k) s :=
    ⟨_, holds_rounds (holds_taken (holds_absorbed hi.le) (length_blockAt hi)) hk⟩
  constructor
  · exact fun i hi => (holds_absorbed hi).lt
  · intro i hi k hk
    obtain ⟨s, hs⟩ := hround hi hk
    exact hs.lt
  · intro i hi k hk
    obtain ⟨s, hs⟩ := hround hi hk.le
    exact hs.fitsRound

theorem mapM_toBytes8 : ∀ {words : List ℕ}, (∀ word ∈ words, word < 2 ^ 64) →
    words.mapM toBytes8 = .ok (words.map (littleBytes 8))
  | [], _ => rfl
  | word :: words, h => by
    have hword : toBytes8 word = .ok (littleBytes 8 word) := if_pos (h word List.mem_cons_self)
    rw [List.mapM_cons, hword, mapM_toBytes8 fun w hw => h w (List.mem_cons_of_mem word hw)]
    rfl

/-- **No conversion overflows.** -/
theorem keccak256OrRaise_eq (data : List UInt8) : keccak256OrRaise data = .ok (keccak256 data) := by
  have hfits : Fits (finalLanes data) := (lanesFit data).between _ le_rfl
  have hwords : squeezeOrRaise (finalLanes data) = .ok (squeeze (finalLanes data)) := by
    unfold squeezeOrRaise squeeze
    rw [mapM_toBytes8 fun word hword => ?_]
    · refine congrArg Except.ok ?_
      simp [List.flatMap_def, List.flatten_flatten, Function.comp_def]
    · obtain ⟨y, -, hword⟩ := List.mem_flatMap.mp hword
      obtain ⟨x, -, rfl⟩ := List.mem_map.mp hword
      exact hfits x y
  exact bind_eq_ok.mpr ⟨_, hwords, rfl⟩

/-! ## The order struct -/

/-- The eleven fields of an order, each within its range. -/
@[ext] structure OrderFields where
  salt : Fin (2 ^ 256)
  maker : Fin (2 ^ 160)
  signer : Fin (2 ^ 160)
  tokenId : Fin (2 ^ 256)
  makerAmount : Fin (2 ^ 256)
  takerAmount : Fin (2 ^ 256)
  side : Fin (2 ^ 8)
  signatureType : Fin (2 ^ 8)
  timestamp : Fin (2 ^ 256)
  metadata : { bytes : List UInt8 // bytes.length = 32 }
  builder : { bytes : List UInt8 // bytes.length = 32 }

/-- A message holds some fields, in whatever spelling. -/
structure Denotes (textOf : Value → String) (message : Value) (fields : OrderFields) : Prop where
  salt : (item message "salt" >>= Value.toInt) = .ok (fields.salt : ℤ)
  maker : (itemText textOf message "maker" >>= intOfHex) = .ok (fields.maker : ℤ)
  signer : (itemText textOf message "signer" >>= intOfHex) = .ok (fields.signer : ℤ)
  tokenId : (item message "tokenId" >>= Value.toInt) = .ok (fields.tokenId : ℤ)
  makerAmount : (item message "makerAmount" >>= Value.toInt) = .ok (fields.makerAmount : ℤ)
  takerAmount : (item message "takerAmount" >>= Value.toInt) = .ok (fields.takerAmount : ℤ)
  side : (item message "side" >>= Value.toInt) = .ok (fields.side : ℤ)
  signatureType : (item message "signatureType" >>= Value.toInt) = .ok (fields.signatureType : ℤ)
  timestamp : (item message "timestamp" >>= Value.toInt) = .ok (fields.timestamp : ℤ)
  metadata : (itemText textOf message "metadata" >>= bytes32) = .ok fields.metadata.1
  builder : (itemText textOf message "builder" >>= bytes32) = .ok fields.builder.1

/-- A number as a word of 32 bytes. -/
def word (n : ℕ) : List UInt8 := (littleBytes 32 n).reverse

/-- The words of the fields. -/
def OrderFields.words (fields : OrderFields) : List (List UInt8) :=
  [word fields.salt, word fields.maker, word fields.signer, word fields.tokenId,
    word fields.makerAmount, word fields.takerAmount, word fields.side, word fields.signatureType,
    word fields.timestamp, fields.metadata.1, fields.builder.1]

theorem length_littleBytes (k n : ℕ) : (littleBytes k n).length = k := by
  induction k generalizing n with
  | zero => rfl
  | succ k ih => rw [littleBytes, List.length_cons, ih]

theorem length_word (n : ℕ) : (word n).length = 32 := by
  rw [word, List.length_reverse, length_littleBytes]

/-- A word holds one number. -/
theorem word_inj {m n : ℕ} (hm : m < 2 ^ 256) (hn : n < 2 ^ 256) (h : word m = word n) : m = n := by
  have hbits := congrArg Keccak.bits (List.reverse_injective h)
  rw [bits_littleBytes, bits_littleBytes, List.map_inj_left] at hbits
  refine Nat.eq_of_testBit_eq fun i => ?_
  by_cases hi : i < 8 * 32
  · exact hbits i (List.mem_range.mpr hi)
  · have hpow : 2 ^ 256 ≤ 2 ^ i := Nat.pow_le_pow_right (by decide) (not_lt.mp hi)
    rw [Nat.testBit_lt_two_pow (hm.trans_le hpow), Nat.testBit_lt_two_pow (hn.trans_le hpow)]

theorem toBytes32_of_lt {n : ℕ} (h : n < 2 ^ 256) : toBytes32 n = .ok (word n) := by
  have hlt : (n : ℤ) < 2 ^ 256 := by exact_mod_cast h
  rw [toBytes32, if_neg (by omega), if_pos hlt, Int.toNat_natCast, word]

/-- Texts of one length, cut from their concatenation. -/
theorem flatten_inj {α : Type} {n : ℕ} : ∀ {xs ys : List (List α)}, xs.length = ys.length →
    (∀ x ∈ xs, x.length = n) → (∀ y ∈ ys, y.length = n) → xs.flatten = ys.flatten → xs = ys
  | [], [], _, _, _, _ => rfl
  | x :: xs, y :: ys, hlength, hx, hy, h => by
    have hsame : x.length = y.length :=
      (hx x List.mem_cons_self).trans (hy y List.mem_cons_self).symm
    obtain ⟨rfl, hrest⟩ := List.append_inj h hsame
    rw [flatten_inj (Nat.succ.inj hlength) (fun w hw => hx w (List.mem_cons_of_mem x hw))
      (fun w hw => hy w (List.mem_cons_of_mem x hw)) hrest]

section Struct

variable {textOf : Value → String} {message message' : Value} {fields fields' : OrderFields}

theorem bind_bind_eq_ok {α β γ : Type} {x : Except PyExc α} {f : α → Except PyExc β} {b : β}
    {g : β → Except PyExc γ} (h : (x >>= f) = .ok b) : (x >>= fun a => f a >>= g) = g b := by
  cases x with
  | error e => simp [bind, Except.bind] at h
  | ok a =>
    have hf : f a = .ok b := h
    show (f a >>= g) = g b
    rw [hf]
    rfl

theorem length_words : ∀ w ∈ fields.words, w.length = 32 := by
  simp only [OrderFields.words, List.mem_cons, List.not_mem_nil, or_false]
  rintro w (rfl | rfl | rfl | rfl | rfl | rfl | rfl | rfl | rfl | rfl | rfl)
  any_goals exact length_word _
  · exact fields.metadata.2
  · exact fields.builder.2

/-- The words hold one list of fields. -/
theorem words_injective (h : fields.words = fields'.words) : fields = fields' := by
  have hsmall {k : ℕ} (hk : k ≤ 256) {m n : Fin (2 ^ k)} (hmn : word m = word n) : m = n :=
    Fin.ext (word_inj (m.isLt.trans_le (Nat.pow_le_pow_right (by decide) hk))
      (n.isLt.trans_le (Nat.pow_le_pow_right (by decide) hk)) hmn)
  simp only [OrderFields.words, List.cons.injEq, and_true] at h
  obtain ⟨hsalt, hmaker, hsigner, htoken, hmade, htaken, hside, htype, htime, hmetadata, hbuilder⟩ := h
  exact OrderFields.ext (hsmall le_rfl hsalt) (hsmall (by decide) hmaker) (hsmall (by decide) hsigner)
    (hsmall le_rfl htoken) (hsmall le_rfl hmade) (hsmall le_rfl htaken) (hsmall (by decide) hside)
    (hsmall (by decide) htype) (hsmall le_rfl htime) (Subtype.ext hmetadata) (Subtype.ext hbuilder)

theorem u256_item {key : String} {n : ℕ} (h : (item message key >>= Value.toInt) = .ok (n : ℤ))
    (hn : n < 2 ^ 256) : (item message key >>= u256) = .ok (word n) := by
  obtain ⟨value, hvalue, hint⟩ := bind_eq_ok.mp h
  exact bind_eq_ok.mpr ⟨value, hvalue, bind_eq_ok.mpr ⟨n, hint, toBytes32_of_lt hn⟩⟩

theorem addr32_item {key : String} {n : ℕ} (h : (itemText textOf message key >>= intOfHex) = .ok (n : ℤ))
    (hn : n < 2 ^ 256) : (itemText textOf message key >>= addr32) = .ok (word n) := by
  obtain ⟨text, htext, hint⟩ := bind_eq_ok.mp h
  exact bind_eq_ok.mpr ⟨text, htext, bind_eq_ok.mpr ⟨n, hint, toBytes32_of_lt hn⟩⟩

/-- **The preimage** of a message that holds some fields: their words, after the hash of the type. -/
theorem structPreimage_of_denotes (h : Denotes textOf message fields) :
    structPreimage textOf message = .ok (orderTypeHash ++ fields.words.flatten) := by
  have hsmall {k : ℕ} (hk : k ≤ 256) (n : Fin (2 ^ k)) : (n : ℕ) < 2 ^ 256 :=
    n.isLt.trans_le (Nat.pow_le_pow_right (by decide) hk)
  have hwords : structWords textOf message = .ok fields.words.flatten := by
    unfold structWords
    refine (bind_bind_eq_ok (u256_item h.salt (hsmall le_rfl _))).trans ?_
    refine (bind_bind_eq_ok (addr32_item h.maker (hsmall (by decide) _))).trans ?_
    refine (bind_bind_eq_ok (addr32_item h.signer (hsmall (by decide) _))).trans ?_
    refine (bind_bind_eq_ok (u256_item h.tokenId (hsmall le_rfl _))).trans ?_
    refine (bind_bind_eq_ok (u256_item h.makerAmount (hsmall le_rfl _))).trans ?_
    refine (bind_bind_eq_ok (u256_item h.takerAmount (hsmall le_rfl _))).trans ?_
    refine (bind_bind_eq_ok (u256_item h.side (hsmall (by decide) _))).trans ?_
    refine (bind_bind_eq_ok (u256_item h.signatureType (hsmall (by decide) _))).trans ?_
    refine (bind_bind_eq_ok (u256_item h.timestamp (hsmall le_rfl _))).trans ?_
    refine (bind_bind_eq_ok h.metadata).trans ?_
    refine (bind_bind_eq_ok h.builder).trans ?_
    simp [OrderFields.words, pure, Except.pure]
  exact bind_eq_ok.mpr ⟨_, hwords, rfl⟩

/-- **One preimage, one order.** -/
theorem structPreimage_inj (h : Denotes textOf message fields) (h' : Denotes textOf message' fields') :
    structPreimage textOf message = structPreimage textOf message' ↔ fields = fields' := by
  rw [structPreimage_of_denotes h, structPreimage_of_denotes h', Except.ok.injEq,
    List.append_cancel_left_eq]
  constructor
  · exact fun hflat => words_injective (flatten_inj rfl length_words length_words hflat)
  · rintro rfl
    rfl

end Struct

/-- **The order hash** is over Keccak-256: the sponge of the specification on every byte string, with no
lane that outgrows its word, and one preimage for each order. -/
theorem keccak256_sponge (textOf : Value → String) :
    (∀ data, Keccak.bits (keccak256 data) = Keccak.keccak 512 (Keccak.bits data) 256) ∧
    (∀ data, LanesFit data ∧ keccak256OrRaise data = .ok (keccak256 data)) ∧
    ∀ message message' fields fields', Denotes textOf message fields →
      Denotes textOf message' fields' →
      (structPreimage textOf message = structPreimage textOf message' ↔ fields = fields') :=
  ⟨bits_keccak256, fun data => ⟨lanesFit data, keccak256OrRaise_eq data⟩,
    fun _ _ _ _ h h' => structPreimage_inj h h'⟩

/-- A message in texts and numbers, and the same in other spellings. -/
def spelled (salt : Value) (maker : String) : Value := .dict [
  ("salt", salt), ("maker", .str maker), ("signer", .str "0x2"), ("tokenId", .str "7"),
  ("makerAmount", .int 5), ("takerAmount", .str "9"), ("side", .int 1), ("signatureType", .int 0),
  ("timestamp", .str "11"), ("metadata", .str "0x01"), ("builder", .str "0")]

/-- The fields of the message. -/
def spelledFields : OrderFields where
  salt := ⟨3, by norm_num⟩
  maker := ⟨16, by norm_num⟩
  signer := ⟨2, by norm_num⟩
  tokenId := ⟨7, by norm_num⟩
  makerAmount := ⟨5, by norm_num⟩
  takerAmount := ⟨9, by norm_num⟩
  side := ⟨1, by norm_num⟩
  signatureType := ⟨0, by norm_num⟩
  timestamp := ⟨11, by norm_num⟩
  metadata := ⟨List.replicate 31 0 ++ [1], by decide⟩
  builder := ⟨List.replicate 32 0, by decide⟩

/-- Two spellings of one order have one preimage. -/
theorem keccak256_sponge_spelled :
    structPreimage (fun _ => "") (spelled (.int 3) "0x10") =
      structPreimage (fun _ => "") (spelled (.str "3") "0X0010") := by
  have hdenotes (salt : Value) (maker : String) (hsalt : Value.toInt salt = .ok 3)
      (hmaker : intOfHex maker = .ok 16) : Denotes (fun _ => "") (spelled salt maker) spelledFields := by
    exact {
      salt := bind_eq_ok.mpr ⟨salt, rfl, hsalt⟩
      maker := bind_eq_ok.mpr ⟨maker, rfl, hmaker⟩
      signer := bind_eq_ok.mpr ⟨"0x2", rfl, by decide +kernel⟩
      tokenId := bind_eq_ok.mpr ⟨.str "7", rfl, by decide +kernel⟩
      makerAmount := bind_eq_ok.mpr ⟨.int 5, rfl, rfl⟩
      takerAmount := bind_eq_ok.mpr ⟨.str "9", rfl, by decide +kernel⟩
      side := bind_eq_ok.mpr ⟨.int 1, rfl, rfl⟩
      signatureType := bind_eq_ok.mpr ⟨.int 0, rfl, rfl⟩
      timestamp := bind_eq_ok.mpr ⟨.str "11", rfl, by decide +kernel⟩
      metadata := bind_eq_ok.mpr ⟨"0x01", rfl, by decide +kernel⟩
      builder := bind_eq_ok.mpr ⟨"0", rfl, by decide +kernel⟩ }
  exact ((keccak256_sponge fun _ => "").2.2 _ _ _ _
    (hdenotes (.int 3) "0x10" rfl (by decide +kernel))
    (hdenotes (.str "3") "0X0010" (by decide +kernel) (by decide +kernel))).mpr rfl

end Veridex.DustExecution
