import Mathlib

/-!
# The Python values the sources compute with

* `PyFloat`: a `float` that may still be `nan` or an infinity. The sources compare such values
  before they reject them, so the comparisons are IEEE's (`nan` compares false with everything).
  Finite values are exact rationals: rounding of the arithmetic is not modelled.
* `pyRound`, `pyRoundTo`: `round`, ties to even.
* `DateTime`: an aware UTC `datetime`, in microseconds since the epoch.
  `fromTimestampMs` is `datetime.fromtimestamp(ts_ms / 1000.0, tz=UTC)`: it raises outside the
  years 1 to 9999.
* `PyExc`: a raised exception, by the class the sources' handlers tell apart and its text.
-/

namespace Veridex.Py

/-! ## Exceptions -/

/-- The classes a handler of the sources tells apart. Everything but `baseException` is an
`Exception`. -/
inductive ExcClass where
  | failClosed
  | reArmDenied
  | staleVenueBook
  | valueError
  | typeError
  | attributeError
  | exception
  | baseException
  deriving DecidableEq, Repr

/-- A raised exception. -/
structure PyExc where
  cls : ExcClass
  msg : String
  deriving DecidableEq, Repr

/-- `except Exception` catches it. -/
def PyExc.isException (e : PyExc) : Bool := e.cls != .baseException

/-! ## Floats -/

/-- A Python `float`. -/
inductive PyFloat where
  | nan
  | negInf
  | posInf
  | fin (q : ℚ)
  deriving DecidableEq, Repr

namespace PyFloat

instance : Coe ℚ PyFloat := ⟨fin⟩

/-- `math.isfinite`. -/
def isFinite : PyFloat → Bool
  | fin _ => true
  | _ => false

/-- `a <= b`. -/
def le : PyFloat → PyFloat → Bool
  | nan, _ | _, nan => false
  | negInf, _ | _, posInf => true
  | posInf, _ | _, negInf => false
  | fin a, fin b => a ≤ b

/-- `a < b`. -/
def lt : PyFloat → PyFloat → Bool
  | nan, _ | _, nan => false
  | _, negInf | posInf, _ => false
  | negInf, _ | _, posInf => true
  | fin a, fin b => a < b

/-- The sign: `0` for `nan` too. -/
def sign : PyFloat → ℤ
  | nan => 0
  | negInf => -1
  | posInf => 1
  | fin q => if q < 0 then -1 else if 0 < q then 1 else 0

/-- `-a`. -/
def neg : PyFloat → PyFloat
  | nan => nan
  | negInf => posInf
  | posInf => negInf
  | fin a => fin (-a)

/-- `a * b`: an infinity times zero is `nan`. -/
def mul : PyFloat → PyFloat → PyFloat
  | nan, _ | _, nan => nan
  | fin a, fin b => fin (a * b)
  | a, b => if a.sign * b.sign < 0 then negInf else if 0 < a.sign * b.sign then posInf else nan

@[simp] theorem isFinite_fin (q : ℚ) : (fin q).isFinite = true := rfl

@[simp] theorem le_fin_fin (a b : ℚ) : (fin a).le (fin b) = decide (a ≤ b) := rfl

@[simp] theorem lt_fin_fin (a b : ℚ) : (fin a).lt (fin b) = decide (a < b) := rfl

@[simp] theorem mul_fin_fin (a b : ℚ) : (fin a).mul (fin b) = fin (a * b) := rfl

/-- Against a finite value, a bound that is a number either is met or is not. -/
theorem lt_of_not_le {a : ℚ} {b : PyFloat} (hb : b ≠ nan) (h : b.le (fin a) = false) :
    (fin a).lt b = true := by
  cases b with
  | nan => exact absurd rfl hb
  | negInf => simp [le] at h
  | posInf => rfl
  | fin b => simpa using h

theorem le_of_not_lt {a : ℚ} {b : PyFloat} (hb : b ≠ nan) (h : (fin a).lt b = false) :
    b.le (fin a) = true := by
  cases b with
  | nan => exact absurd rfl hb
  | negInf => rfl
  | posInf => simp [lt] at h
  | fin b => simpa using h

/-- A positive number times one is a positive number. -/
theorem mul_pos {a b : PyFloat} (ha : (fin 0).lt a = true) (hb : (fin 0).lt b = true) :
    (fin 0).lt (a.mul b) = true := by
  cases a <;> cases b <;> simp_all [lt, mul, sign]
  · rename_i q
    have hq : ¬ q < 0 := not_lt.mpr hb.le
    simp [hq]
  · rename_i q
    have hq : ¬ q < 0 := not_lt.mpr ha.le
    simp [hq]

theorem lt_of_fin_le {a b : ℚ} {c : PyFloat} (hab : a ≤ b) (h : (fin b).lt c = true) :
    (fin a).lt c = true := by
  cases c <;> simp_all [lt]
  exact hab.trans_lt h

theorem ne_nan_of_lt {a b : PyFloat} (h : a.lt b = true) : b ≠ nan := by
  rintro rfl
  cases a <;> simp [lt] at h

end PyFloat

/-! ## Rounding -/

/-- `round(x)`: the nearest integer, ties to the even one. -/
def pyRound (q : ℚ) : ℤ :=
  let below := ⌊q⌋
  let rest := q - below
  if rest < 1 / 2 then below
  else if 1 / 2 < rest then below + 1
  else if below % 2 = 0 then below
  else below + 1

/-- `round(x, dp)`. -/
def pyRoundTo (dp : ℕ) (q : ℚ) : ℚ := pyRound (q * 10 ^ dp) / 10 ^ dp

theorem pyRound_mem (q : ℚ) : pyRound q = ⌊q⌋ ∨ pyRound q = ⌊q⌋ + 1 := by
  unfold pyRound
  simp only
  split_ifs <;> simp

theorem pyRound_nonneg {q : ℚ} (h : 0 ≤ q) : 0 ≤ pyRound q := by
  have hfloor : 0 ≤ ⌊q⌋ := Int.floor_nonneg.mpr h
  rcases pyRound_mem q with h' | h' <;> omega

@[simp] theorem pyRound_intCast (n : ℤ) : pyRound n = n := by
  simp [pyRound]

theorem pyRoundTo_nonneg {dp : ℕ} {q : ℚ} (h : 0 ≤ q) : 0 ≤ pyRoundTo dp q := by
  have hpow : (0 : ℚ) ≤ 10 ^ dp := by positivity
  exact div_nonneg (by exact_mod_cast pyRound_nonneg (mul_nonneg h hpow)) hpow

theorem pyRound_le {q : ℚ} {n : ℤ} (h : q ≤ n) : pyRound q ≤ n := by
  have hfloor : ⌊q⌋ ≤ n := Int.floor_le_iff.mpr (by linarith)
  rcases hfloor.lt_or_eq with hlt | heq
  · rcases pyRound_mem q with h' | h' <;> omega
  · have hq : q = n := le_antisymm h (heq ▸ Int.floor_le q)
    rw [hq, pyRound_intCast]

theorem le_pyRound {q : ℚ} {n : ℤ} (h : n ≤ q) : n ≤ pyRound q := by
  have hfloor : n ≤ ⌊q⌋ := Int.le_floor.mpr h
  rcases pyRound_mem q with h' | h' <;> omega

theorem pyRoundTo_le {dp : ℕ} {q : ℚ} {n : ℤ} (h : q ≤ n) : pyRoundTo dp q ≤ n := by
  have hpow : (0 : ℚ) < 10 ^ dp := by positivity
  rw [pyRoundTo, div_le_iff₀ hpow]
  have hround : pyRound (q * 10 ^ dp) ≤ n * (10 : ℤ) ^ dp := by
    apply pyRound_le
    push_cast
    exact mul_le_mul_of_nonneg_right h hpow.le
  exact_mod_cast hround

theorem le_pyRoundTo {dp : ℕ} {q : ℚ} {n : ℤ} (h : n ≤ q) : n ≤ pyRoundTo dp q := by
  have hpow : (0 : ℚ) < 10 ^ dp := by positivity
  rw [pyRoundTo, le_div_iff₀ hpow]
  have hround : n * (10 : ℤ) ^ dp ≤ pyRound (q * 10 ^ dp) := by
    apply le_pyRound
    push_cast
    exact mul_le_mul_of_nonneg_right h hpow.le
  exact_mod_cast hround

theorem pyRoundTo_le_one {dp : ℕ} {q : ℚ} (h : q ≤ 1) : pyRoundTo dp q ≤ 1 := by
  have hround : pyRoundTo dp q ≤ (1 : ℤ) := pyRoundTo_le (by exact_mod_cast h)
  exact_mod_cast hround

/-- Rounding leaves a number of that many decimals as it is. -/
theorem pyRoundTo_of_decimals {dp : ℕ} {q : ℚ} {n : ℤ} (h : q * 10 ^ dp = n) :
    pyRoundTo dp q = q := by
  have hpow : (10 : ℚ) ^ dp ≠ 0 := by positivity
  rw [pyRoundTo, h, pyRound_intCast, ← h, mul_div_cancel_right₀ q hpow]

/-! ## Datetimes -/

/-- An aware UTC `datetime`. -/
structure DateTime where
  epochUs : ℤ
  deriving DecidableEq, Repr

/-- The UTC day, counted from the epoch: the `datetime` with its clock time replaced by zero. -/
def DateTime.utcDay (t : DateTime) : ℤ := t.epochUs / 86400000000

/-- The first millisecond of the year 1, and the first one past the year 9999. -/
def minTimestampMs : ℤ := -62135596800000
def maxTimestampMs : ℤ := 253402300800000

/-- `datetime.fromtimestamp(ts_ms / 1000.0, tz=UTC)`. -/
def DateTime.fromTimestampMs (tsMs : ℤ) : Except PyExc DateTime :=
  if minTimestampMs ≤ tsMs ∧ tsMs < maxTimestampMs then .ok ⟨tsMs * 1000⟩
  else .error ⟨.valueError, "year is out of range"⟩

end Veridex.Py
