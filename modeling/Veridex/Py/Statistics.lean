import Mathlib

/-!
# Windows and medians

* `lastN xs n`: the slice `xs[-n:]` for a positive `n`.
* `median`: `statistics.median` of a non-empty sample. An even sample has the arithmetic mean of
  its two central order statistics.
-/

namespace Veridex.Py

variable {α : Type}

/-- `xs[-n:]`, for a positive `n`. -/
def lastN (xs : List α) (n : ℕ) : List α := xs.rtake n

@[simp] theorem length_lastN (xs : List α) (n : ℕ) : (lastN xs n).length = min n xs.length := by
  simp only [lastN, List.rtake, List.length_drop]
  omega

theorem lastN_eq_nil_iff {xs : List α} {n : ℕ} (hn : 1 ≤ n) : lastN xs n = [] ↔ xs = [] := by
  rw [← List.length_eq_zero_iff, length_lastN, ← List.length_eq_zero_iff]
  omega

/-- A window cut on every append holds what one cut at the end does. -/
theorem lastN_lastN_append (xs ys : List α) (n : ℕ) :
    lastN (lastN xs n ++ ys) n = lastN (xs ++ ys) n := by
  simp only [lastN, List.rtake, List.drop_append, List.drop_drop, List.length_append,
    List.length_drop]
  congr 2 <;> omega

@[simp] theorem lastN_lastN (xs : List α) (n : ℕ) : lastN (lastN xs n) n = lastN xs n := by
  simpa using lastN_lastN_append xs [] n

/-- `statistics.median` of a non-empty sample. -/
def median (samples : List ℚ) : ℚ :=
  let data := samples.insertionSort (· ≤ ·)
  let n := data.length
  if n % 2 = 1 then data.getD (n / 2) 0
  else (data.getD (n / 2 - 1) 0 + data.getD (n / 2) 0) / 2

example : median [3, 1, 2] = 2 := by decide +kernel

example : median [4, 1, 2, 3] = 5 / 2 := by decide +kernel

end Veridex.Py
