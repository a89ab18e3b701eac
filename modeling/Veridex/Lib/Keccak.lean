import Mathlib

/-!
# Keccak, on bits

The sponge over a permutation of the states of `b` bits, with the padding `pad10*1`, and the permutation
Keccak-f[1600] as its specification has it: a state is a cube of bits, five by five by sixty-four, and a
round is five steps on it. The offsets of `rho` are the triangular numbers along the walk of the sheets,
and the round constants are the output of a linear feedback shift register.

Bit `64 (5 y + x) + z` of a state is the bit at `x`, `y`, `z` of the cube.
-/

namespace Veridex.Lib.Keccak

/-! ## The sponge -/

section Sponge

variable {b : ℕ} (f : (Fin b → Bool) → Fin b → Bool) (r : ℕ)

/-- `pad10*1`: a one, zeros and a one, up to a multiple of the rate. -/
def pad (n : ℕ) : List Bool :=
  true :: List.replicate ((r - (n + 2) % r) % r) false ++ [true]

/-- The blocks of a string of bits. -/
def blocks (bits : List Bool) : List (List Bool) :=
  (List.range (bits.length / r)).map fun i => (bits.drop (r * i)).take r

/-- A block, taken into the outer part of the state. -/
def absorb (s : Fin b → Bool) (block : List Bool) : Fin b → Bool :=
  f fun i => s i ^^ block.getD i false

/-- The first bits that are squeezed out of a state. -/
def squeeze (s : Fin b → Bool) (length : ℕ) : List Bool :=
  ((List.range ((length + (r - 1)) / r)).flatMap fun k => (List.ofFn (f^[k] s)).take r).take length

/-- The sponge. -/
def sponge (bits : List Bool) (length : ℕ) : List Bool :=
  squeeze f r ((blocks r (bits ++ pad r bits.length)).foldl (absorb f) fun _ => false) length

end Sponge

/-! ## Keccak-f[1600] -/

/-- The state as a cube. -/
abbrev Cube := Fin 5 → Fin 5 → Fin 64 → Bool

/-- The parity of a column. -/
def parity (a : Cube) (x : Fin 5) (z : Fin 64) : Bool :=
  a x 0 z ^^ a x 1 z ^^ a x 2 z ^^ a x 3 z ^^ a x 4 z

/-- Each bit is added the parities of two columns next to it. -/
def theta (a : Cube) : Cube := fun x y z => a x y z ^^ parity a (x - 1) z ^^ parity a (x + 1) (z - 1)

/-- The walk of the sheets. -/
def walk (t : ℕ) : Fin 5 × Fin 5 := (fun p => (p.2, 2 * p.1 + 3 * p.2))^[t] (1, 0)

/-- How far `rho` moves a lane: a triangular number. -/
def offset (x y : Fin 5) : ℕ :=
  match (List.range 24).find? fun t => walk t = (x, y) with
  | some t => (t + 1) * (t + 2) / 2
  | none => 0

def rho (a : Cube) : Cube := fun x y z => a x y (z - Fin.ofNat 64 (offset x y))

def pi (a : Cube) : Cube := fun x y z => a (x + 3 * y) x z

def chi (a : Cube) : Cube := fun x y z => a x y z ^^ (!a (x + 1) y z && a (x + 2) y z)

/-- The shift register: multiplication by `x`, modulo `x ^ 8 + x ^ 6 + x ^ 5 + x ^ 4 + 1`. -/
def shift (n : ℕ) : ℕ := if n.testBit 7 then (2 * n) ^^^ 0x171 else 2 * n

/-- A bit that the register puts out. -/
def outBit (t : ℕ) : Bool := (shift^[t] 1).testBit 0

/-- A round constant has its bits at the places `2 ^ j - 1`. -/
def roundConstant (i : ℕ) (z : Fin 64) : Bool :=
  (List.range 7).any fun j => z.val = 2 ^ j - 1 && outBit (j + 7 * i)

def iota (i : ℕ) (a : Cube) : Cube := fun x y z => a x y z ^^ (x = 0 && y = 0 && roundConstant i z)

def round (a : Cube) (i : ℕ) : Cube := iota i (chi (pi (rho (theta a))))

/-- The cube of a state. -/
def cube (s : Fin 1600 → Bool) : Cube := fun x y z => s ⟨64 * (5 * y + x) + z, by omega⟩

/-- The state of a cube. -/
def flat (a : Cube) : Fin 1600 → Bool := fun i =>
  a ⟨i / 64 % 5, by omega⟩ ⟨i / 320, by omega⟩ ⟨i % 64, by omega⟩

/-- Keccak-f[1600]: twenty-four rounds. -/
def keccakF (s : Fin 1600 → Bool) : Fin 1600 → Bool := flat ((List.range 24).foldl round (cube s))

/-- Keccak with a capacity. -/
def keccak (capacity : ℕ) (bits : List Bool) (length : ℕ) : List Bool :=
  sponge keccakF (1600 - capacity) bits length

/-! ## Bytes as bits -/

/-- The bits of some bytes, each with its lowest bit first. -/
def bits (data : List UInt8) : List Bool :=
  data.flatMap fun byte => (List.range 8).map byte.toNat.testBit

@[simp] theorem length_bits (data : List UInt8) : (bits data).length = 8 * data.length := by
  simp [bits, mul_comm]

theorem bits_cons (byte : UInt8) (data : List UInt8) :
    bits (byte :: data) = (List.range 8).map byte.toNat.testBit ++ bits data := rfl

@[simp] theorem bits_append (data data' : List UInt8) : bits (data ++ data') = bits data ++ bits data' :=
  List.flatMap_append

theorem bits_replicate_zero (n : ℕ) : bits (List.replicate n 0) = List.replicate (8 * n) false := by
  induction n with
  | zero => rfl
  | succ n ih =>
    rw [List.replicate_succ, bits_cons, ih, Nat.mul_succ, Nat.add_comm,
      ← List.replicate_append_replicate]
    rfl

theorem bits_drop (n : ℕ) (data : List UInt8) : bits (data.drop n) = (bits data).drop (8 * n) := by
  induction n generalizing data with
  | zero => rfl
  | succ n ih =>
    cases data with
    | nil => rfl
    | cons byte data =>
      rw [List.drop_succ_cons, ih, bits_cons, Nat.mul_succ, Nat.add_comm, ← List.drop_drop,
        List.drop_left' (by simp)]

theorem bits_take (n : ℕ) (data : List UInt8) : bits (data.take n) = (bits data).take (8 * n) := by
  induction n generalizing data with
  | zero => rfl
  | succ n ih =>
    cases data with
    | nil => simp [bits]
    | cons byte data =>
      have hbyte : ((List.range 8).map byte.toNat.testBit).length = 8 := by simp
      rw [List.take_succ_cons, bits_cons, bits_cons, ih, Nat.mul_succ, Nat.add_comm,
        List.take_append, List.take_of_length_le (hbyte.trans_le (Nat.le_add_right 8 (8 * n))), hbyte,
        Nat.add_sub_cancel_left]

/-- A bit of some bytes. -/
theorem getD_bits (data : List UInt8) (k : ℕ) :
    (bits data).getD k false = (data.getD (k / 8) 0).toNat.testBit (k % 8) := by
  induction data generalizing k with
  | nil => simp [bits]
  | cons byte data ih =>
    rw [bits_cons]
    by_cases hk : k < 8
    · rw [List.getD_append _ _ _ _ (by simpa using hk), Nat.div_eq_of_lt hk, Nat.mod_eq_of_lt hk]
      simp [List.getD_eq_getElem?_getD, hk]
    · have hdiv : k / 8 = (k - 8) / 8 + 1 := by omega
      have hmod : k % 8 = (k - 8) % 8 := by omega
      rw [List.getD_append_right _ _ _ _ (by simpa using hk), hdiv, hmod, List.getD_cons_succ]
      simpa using ih (k - 8)

/-! ## The two numberings -/

@[simp] theorem cube_flat (a : Cube) : cube (flat a) = a := by
  funext x y z
  have hx : (64 * (5 * y.val + x.val) + z.val) / 64 % 5 = x := by omega
  have hy : (64 * (5 * y.val + x.val) + z.val) / 320 = y := by omega
  have hz : (64 * (5 * y.val + x.val) + z.val) % 64 = z := by omega
  simp only [cube, flat, hx, hy, hz]

/-- **Where `pi` takes a lane**: one step of the walk. -/
theorem pi_apply (a : Cube) (x y : Fin 5) : pi a y (2 * x + 3 * y) = a x y := by
  have hback : ∀ x y : Fin 5, y + 3 * (2 * x + 3 * y) = x := by decide
  funext z
  rw [pi, hback]

end Veridex.Lib.Keccak
