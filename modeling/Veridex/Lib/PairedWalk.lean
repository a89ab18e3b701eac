import Mathlib

/-!
# Walking two ladders slice by slice

Two lists of positive-size segments are consumed together from the front, a slice of the smaller
remaining size at a time, and a test is made of each pair of segments that share a slice. `walk`
answers whether the test ever succeeds.

Laid end to end from a common origin the segments of each list are intervals (`spans`).
`walk_eq_true_iff` says what the walk tests: exactly the pairs whose intervals overlap.
-/

namespace Veridex.Lib.PairedWalk

variable {α β M : Type*} [Field M]

/-- The segments as intervals laid end to end from `c`: tag, start, stop. -/
def spans : M → List (α × M) → List (α × M × M)
  | _, [] => []
  | c, (a, s) :: xs => (a, c, c + s) :: spans (c + s) xs

theorem fst_mem_of_mem_spans : ∀ {c : M} {xs : List (α × M)}, ∀ x ∈ spans c xs,
    ∃ s, (x.1, s) ∈ xs
  | _, [], _, hx => by simp [spans] at hx
  | c, (a, s) :: xs, x, hx => by
    rcases List.mem_cons.mp hx with rfl | hx
    · exact ⟨s, List.mem_cons_self⟩
    · obtain ⟨t, ht⟩ := fst_mem_of_mem_spans x hx
      exact ⟨t, List.mem_cons_of_mem _ ht⟩

variable [LinearOrder M]

/-- The walk: `test` on the pair of segments at the front while the slice they share has a size,
then that slice is taken off both. -/
def walk (test : α → β → Bool) : List (α × M) → List (β × M) → Bool
  | (a, s) :: xs, (b, t) :: ys =>
    let q := min s t
    if 0 < q && test a b then true
    else if s - q ≤ 0 then
      if t - q ≤ 0 then walk test xs ys else walk test xs ((b, t - q) :: ys)
    else if t - q ≤ 0 then walk test ((a, s - q) :: xs) ys
    else false -- never: the slice is one of the two sizes
  | _, _ => false
termination_by xs ys => xs.length + ys.length

/-- Some tested pair overlaps. -/
def Overlapping (test : α → β → Bool) (c : M) (xs : List (α × M)) (ys : List (β × M)) : Prop :=
  ∃ x ∈ spans c xs, ∃ y ∈ spans c ys,
    test x.1 y.1 = true ∧ max x.2.1 y.2.1 < min x.2.2 y.2.2

/-- Every segment has a size. -/
def Positive (xs : List (α × M)) : Prop := ∀ x ∈ xs, 0 < x.2

theorem Positive.tail {x : α × M} {xs : List (α × M)} (h : Positive (x :: xs)) : Positive xs :=
  fun y hy => h y (List.mem_cons_of_mem _ hy)

theorem Positive.head {x : α × M} {xs : List (α × M)} (h : Positive (x :: xs)) : 0 < x.2 :=
  h x List.mem_cons_self

theorem Positive.cons {x : α × M} {xs : List (α × M)} (hx : 0 < x.2) (h : Positive xs) :
    Positive (x :: xs) := by
  intro y hy
  rcases List.mem_cons.mp hy with rfl | hy
  · exact hx
  · exact h y hy

theorem not_overlapping_nil_left {test : α → β → Bool} {c : M} {ys : List (β × M)} :
    ¬ Overlapping test c [] ys := by
  simp [Overlapping, spans]

theorem not_overlapping_nil_right {test : α → β → Bool} {c : M} {xs : List (α × M)} :
    ¬ Overlapping test c xs [] := by
  simp [Overlapping, spans]

/-- Swapping the two lists. -/
theorem overlapping_swap {test : α → β → Bool} {c : M} {xs : List (α × M)} {ys : List (β × M)} :
    Overlapping test c xs ys ↔ Overlapping (fun b a => test a b) c ys xs := by
  constructor <;>
  · rintro ⟨x, hx, y, hy, htest, hlt⟩
    exact ⟨y, hy, x, hx, htest, by rwa [max_comm, min_comm]⟩

/-- An overlap names a tested pair. -/
theorem exists_of_overlapping {test : α → β → Bool} {c : M} {xs : List (α × M)}
    {ys : List (β × M)} (h : Overlapping test c xs ys) :
    ∃ x ∈ xs, ∃ y ∈ ys, test x.1 y.1 = true := by
  obtain ⟨x, hx, y, hy, htest, -⟩ := h
  obtain ⟨s, hs⟩ := fst_mem_of_mem_spans x hx
  obtain ⟨t, ht⟩ := fst_mem_of_mem_spans y hy
  exact ⟨_, hs, _, ht, htest⟩

variable [IsStrictOrderedRing M]

theorem le_start_of_mem_spans : ∀ {c : M} {xs : List (α × M)}, Positive xs →
    ∀ x ∈ spans c xs, c ≤ x.2.1
  | _, [], _, _, hx => by simp [spans] at hx
  | c, (a, s) :: xs, hpos, x, hx => by
    rcases List.mem_cons.mp hx with rfl | hx
    · exact le_rfl
    · have hs : 0 < s := hpos.head
      have := le_start_of_mem_spans hpos.tail x hx
      linarith

/-! ## One slice -/

section Slice

variable {test : α → β → Bool} {c s t : M} {a : α} {b : β} {xs : List (α × M)} {ys : List (β × M)}

/-- The front pair overlaps. -/
theorem overlapping_of_front (hs : 0 < s) (ht : 0 < t) (h : test a b = true) :
    Overlapping test c ((a, s) :: xs) ((b, t) :: ys) :=
  ⟨(a, c, c + s), List.mem_cons_self, (b, c, c + t), List.mem_cons_self, h, by simp [hs, ht]⟩

/-- The shorter front segment is used up: what is left overlaps as before. -/
theorem overlapping_drop_left (hxs : Positive ((a, s) :: xs)) (hys : Positive ((b, t) :: ys))
    (hst : s < t) (h : test a b = false) :
    Overlapping test c ((a, s) :: xs) ((b, t) :: ys) ↔
      Overlapping test (c + s) xs ((b, t - s) :: ys) := by
  have hs : 0 < s := hxs.head
  have hstop : c + s + (t - s) = c + t := by ring
  constructor
  · rintro ⟨x, hx, y, hy, htest, hlt⟩
    rcases List.mem_cons.mp hx with rfl | hx
    · rcases List.mem_cons.mp hy with rfl | hy
      · simp [h] at htest
      · -- a later segment of the longer list starts past the used-up one
        have hstart := le_start_of_mem_spans hys.tail y hy
        rw [max_lt_iff, lt_min_iff, lt_min_iff] at hlt
        have hstop' : y.2.1 < c + s := hlt.2.1
        linarith
    · rcases List.mem_cons.mp hy with rfl | hy
      · refine ⟨x, hx, (b, c + s, c + s + (t - s)), List.mem_cons_self, htest, ?_⟩
        have hstart := le_start_of_mem_spans hxs.tail x hx
        rw [hstop, max_eq_left hstart]
        rwa [max_eq_left (by linarith : c ≤ x.2.1)] at hlt
      · refine ⟨x, hx, y, ?_, htest, hlt⟩
        rw [spans, hstop]
        exact List.mem_cons_of_mem _ hy
  · rintro ⟨x, hx, y, hy, htest, hlt⟩
    refine ⟨x, List.mem_cons_of_mem _ hx, ?_⟩
    rw [spans, hstop] at hy
    rcases List.mem_cons.mp hy with rfl | hy
    · refine ⟨(b, c, c + t), List.mem_cons_self, htest, ?_⟩
      have hstart := le_start_of_mem_spans hxs.tail x hx
      rw [max_eq_left hstart] at hlt
      rwa [max_eq_left (by linarith : c ≤ x.2.1)]
    · exact ⟨y, List.mem_cons_of_mem _ hy, htest, hlt⟩

theorem overlapping_drop_right (hxs : Positive ((a, s) :: xs)) (hys : Positive ((b, t) :: ys))
    (hts : t < s) (h : test a b = false) :
    Overlapping test c ((a, s) :: xs) ((b, t) :: ys) ↔
      Overlapping test (c + t) ((a, s - t) :: xs) ys := by
  rw [overlapping_swap, overlapping_drop_left hys hxs hts h, ← overlapping_swap]

theorem overlapping_drop_both (hxs : Positive ((a, s) :: xs)) (hys : Positive ((b, s) :: ys))
    (h : test a b = false) :
    Overlapping test c ((a, s) :: xs) ((b, s) :: ys) ↔ Overlapping test (c + s) xs ys := by
  constructor
  · rintro ⟨x, hx, y, hy, htest, hlt⟩
    rw [max_lt_iff, lt_min_iff, lt_min_iff] at hlt
    rcases List.mem_cons.mp hx with rfl | hx
    · rcases List.mem_cons.mp hy with rfl | hy
      · simp [h] at htest
      · exact absurd hlt.2.1 (not_lt.mpr (le_start_of_mem_spans hys.tail y hy))
    · rcases List.mem_cons.mp hy with rfl | hy
      · exact absurd hlt.1.2 (not_lt.mpr (le_start_of_mem_spans hxs.tail x hx))
      · refine ⟨x, hx, y, hy, htest, ?_⟩
        rw [max_lt_iff, lt_min_iff, lt_min_iff]
        exact hlt
  · rintro ⟨x, hx, y, hy, htest, hlt⟩
    exact ⟨x, List.mem_cons_of_mem _ hx, y, List.mem_cons_of_mem _ hy, htest, hlt⟩

end Slice

/-- **The walk tests exactly the overlapping pairs.** -/
theorem walk_eq_true_iff (test : α → β → Bool) (c : M) :
    ∀ (xs : List (α × M)) (ys : List (β × M)), Positive xs → Positive ys →
      (walk test xs ys = true ↔ Overlapping test c xs ys)
  | [], ys, _, _ => by
    simp [walk, not_overlapping_nil_left]
  | (a, s) :: xs, [], _, _ => by
    simp [walk, not_overlapping_nil_right]
  | (a, s) :: xs, (b, t) :: ys, hxs, hys => by
    have hs : 0 < s := hxs.head
    have ht : 0 < t := hys.head
    by_cases h : test a b = true
    · have hwalk : walk test ((a, s) :: xs) ((b, t) :: ys) = true := by
        rw [walk]
        simp [h, hs, ht]
      exact ⟨fun _ => overlapping_of_front hs ht h, fun _ => hwalk⟩
    · rw [Bool.not_eq_true] at h
      rw [walk]
      simp only [h, Bool.and_false, Bool.false_eq_true, if_false]
      rcases lt_trichotomy s t with hst | rfl | hts
      · rw [min_eq_left hst.le, if_pos (sub_self s).le, if_neg (by linarith : ¬ t - s ≤ 0),
          overlapping_drop_left hxs hys hst h]
        exact walk_eq_true_iff test (c + s) _ _ hxs.tail
          (Positive.cons (by simpa using hst) hys.tail)
      · rw [min_self, if_pos (sub_self s).le, if_pos (sub_self s).le,
          overlapping_drop_both hxs hys h]
        exact walk_eq_true_iff test (c + s) _ _ hxs.tail hys.tail
      · rw [min_eq_right hts.le, if_neg (by linarith : ¬ s - t ≤ 0), if_pos (sub_self t).le,
          overlapping_drop_right hxs hys hts h]
        exact walk_eq_true_iff test (c + t) _ _ (Positive.cons (by simpa using hts) hxs.tail)
          hys.tail
termination_by xs ys => xs.length + ys.length

end Veridex.Lib.PairedWalk
