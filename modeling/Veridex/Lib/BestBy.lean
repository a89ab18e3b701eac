import Mathlib

/-!
# The best eligible element of a list

`bestBy eligible key` scans a list once, skips what is not eligible and keeps the first element with
the greatest key. `bestBy_none_iff` and `bestBy_spec` say what it finds.
-/

namespace Veridex.Lib

variable {α κ : Type*} [LinearOrder κ] (eligible : α → Bool) (key : α → κ)

/-- One element of the scan. -/
def bestStep (best : Option α) (a : α) : Option α :=
  if eligible a then
    match best with
    | none => some a
    | some b => if key b < key a then some a else some b
  else best

/-- The first eligible element with the greatest key. -/
def bestBy (l : List α) : Option α := l.foldl (bestStep eligible key) none

variable {eligible key} {l : List α} {a best : α}

theorem bestBy_concat (l : List α) (a : α) :
    bestBy eligible key (l ++ [a]) = bestStep eligible key (bestBy eligible key l) a := by
  simp [bestBy]

theorem bestBy_none_iff : bestBy eligible key l = none ↔ ∀ a ∈ l, eligible a = false := by
  induction l using List.reverseRecOn with
  | nil => simp [bestBy]
  | append_singleton l a ih =>
    rw [bestBy_concat]
    unfold bestStep
    split_ifs with ha
    · constructor
      · intro h
        cases hbest : bestBy eligible key l <;> simp only [hbest] at h
        · cases h
        · split_ifs at h
      · intro h
        simp [h a (by simp)] at ha
    · rw [ih]
      simp only [List.mem_append, List.mem_singleton]
      constructor
      · rintro h b (hb | rfl)
        · exact h b hb
        · simpa using ha
      · exact fun h b hb => h b (.inl hb)

/-- **What the scan finds** is an eligible element whose key no eligible one exceeds. -/
theorem bestBy_spec (h : bestBy eligible key l = some best) :
    best ∈ l ∧ eligible best = true ∧ ∀ a ∈ l, eligible a = true → key a ≤ key best := by
  induction l using List.reverseRecOn generalizing best with
  | nil => simp [bestBy] at h
  | append_singleton l a ih =>
    rw [bestBy_concat] at h
    unfold bestStep at h
    simp only [List.mem_append, List.mem_singleton]
    split_ifs at h with ha
    · cases hbest : bestBy eligible key l with
      | none =>
        rw [hbest] at h
        cases h
        refine ⟨.inr rfl, ha, ?_⟩
        rintro b (hb | rfl) heligible
        · rw [bestBy_none_iff.mp hbest b hb] at heligible
          cases heligible
        · exact le_rfl
      | some b =>
        obtain ⟨hmem, heligible, hmax⟩ := ih hbest
        simp only [hbest] at h
        split_ifs at h with hlt
        · cases h
          refine ⟨.inr rfl, ha, ?_⟩
          rintro c (hc | rfl) hce
          · exact (hmax c hc hce).trans hlt.le
          · exact le_rfl
        · cases h
          refine ⟨.inl hmem, heligible, ?_⟩
          rintro c (hc | rfl) hce
          · exact hmax c hc hce
          · exact not_lt.mp hlt
    · obtain ⟨hmem, heligible, hmax⟩ := ih h
      refine ⟨.inl hmem, heligible, ?_⟩
      rintro c (hc | rfl) hce
      · exact hmax c hc hce
      · exact absurd hce ha

end Veridex.Lib
