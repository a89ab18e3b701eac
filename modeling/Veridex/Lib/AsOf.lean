import Mathlib

/-!
# Lookups as of a time

A list of samples is put in the order of its times, samples of one time as they came (`timed`). What
is known at a time is the last sample that is no later (`asOf`).

* `filter_timed`: a part of the samples has the order it has among all of them.
* `timed_take`: in that order, the samples that are no later come first.
* `asOf_filter`: what is known at a time is known from the samples up to any later time.
* `asOf_eq_none`: nothing is known only before every sample.
-/

namespace Veridex.Lib

variable {α T : Type*} [LinearOrder T] (time : α → T)

/-- The samples in the order of their times. -/
def timed (l : List α) : List α := l.insertionSort fun a b => time a ≤ time b

/-- The last sample no later than `t`. -/
def asOf (l : List α) (t : T) : Option α := ((timed time l).filter (time · ≤ t)).getLast?

variable {time} {l : List α} {p : α → Bool} {a : α} {s t : T}

@[simp] theorem mem_timed : a ∈ timed time l ↔ a ∈ l := List.mem_insertionSort _

theorem timed_cons (a : α) (l : List α) :
    timed time (a :: l) = (timed time l).orderedInsert (fun a b => time a ≤ time b) a := rfl

theorem timed_perm (l : List α) : (timed time l).Perm l := List.perm_insertionSort _ l

theorem pairwise_timed (l : List α) : (timed time l).Pairwise fun a b => time a ≤ time b :=
  haveI : Std.Total fun a b : α => time a ≤ time b := ⟨fun a b => le_total (time a) (time b)⟩
  haveI : IsTrans α fun a b => time a ≤ time b := ⟨fun _ _ _ => le_trans⟩
  List.pairwise_insertionSort _ l

/-- A sample inserted and then kept is inserted among those that are kept. -/
theorem filter_orderedInsert (hp : p a = true) : ∀ {l : List α},
    l.Pairwise (fun a b => time a ≤ time b) →
    (l.orderedInsert (fun a b => time a ≤ time b) a).filter p =
      (l.filter p).orderedInsert (fun a b => time a ≤ time b) a
  | [], _ => by simp [hp]
  | b :: l, h => by
    obtain ⟨hb, hl⟩ := List.pairwise_cons.mp h
    by_cases hle : time a ≤ time b
    · -- `a` comes first, also among those that are kept
      have hfirst : ∀ c ∈ (b :: l).filter p, time a ≤ time c := by
        intro c hc
        rcases List.mem_cons.mp (List.mem_filter.mp hc).1 with rfl | hc
        · exact hle
        · exact hle.trans (hb c hc)
      rw [List.orderedInsert_cons, if_pos hle, List.filter_cons_of_pos hp]
      cases hkept : (b :: l).filter p with
      | nil => rfl
      | cons c kept =>
        rw [List.orderedInsert_cons, if_pos]
        exact hfirst c (hkept ▸ List.mem_cons_self)
    · rw [List.orderedInsert_cons, if_neg hle, List.filter_cons, List.filter_cons,
        filter_orderedInsert hp hl]
      by_cases hpb : p b = true
      · rw [if_pos hpb, if_pos hpb, List.orderedInsert_cons, if_neg hle]
      · rw [if_neg hpb, if_neg hpb]

theorem filter_orderedInsert_of_not (hp : p a = false) (l : List α) :
    (l.orderedInsert (fun a b => time a ≤ time b) a).filter p = l.filter p := by
  induction l with
  | nil => simp [hp]
  | cons b l ih =>
    by_cases hle : time a ≤ time b
    · rw [List.orderedInsert_cons, if_pos hle, List.filter_cons_of_neg (by simp [hp])]
    · rw [List.orderedInsert_cons, if_neg hle, List.filter_cons, List.filter_cons, ih]

/-- **A part of the samples** has the order it has among all of them. -/
theorem filter_timed (p : α → Bool) (l : List α) :
    (timed time l).filter p = timed time (l.filter p) := by
  induction l with
  | nil => rfl
  | cons a l ih =>
    rw [timed_cons]
    by_cases hp : p a = true
    · rw [filter_orderedInsert hp (pairwise_timed l), ih, List.filter_cons_of_pos hp, timed_cons]
    · rw [filter_orderedInsert_of_not (by simpa using hp), ih, List.filter_cons_of_neg hp]

/-- In the order of times, the samples no later than `t` come first. -/
theorem takeWhile_of_pairwise : ∀ {l : List α}, l.Pairwise (fun a b => time a ≤ time b) →
    l.takeWhile (time · ≤ t) = l.filter (time · ≤ t)
  | [], _ => rfl
  | a :: l, h => by
    obtain ⟨ha, hl⟩ := List.pairwise_cons.mp h
    by_cases hle : time a ≤ t
    · rw [List.takeWhile_cons_of_pos (by simpa using hle), takeWhile_of_pairwise hl,
        List.filter_cons_of_pos (by simpa using hle)]
    · have hlate : ∀ b ∈ a :: l, ¬ time b ≤ t := by
        intro b hb hbt
        rcases List.mem_cons.mp hb with rfl | hb
        · exact hle hbt
        · exact hle ((ha b hb).trans hbt)
      rw [List.takeWhile_cons_of_neg (by simpa using hle), List.filter_eq_nil_iff.mpr]
      simpa using hlate

theorem timed_take (l : List α) (t : T) :
    (timed time l).takeWhile (time · ≤ t) = (timed time l).filter (time · ≤ t) :=
  takeWhile_of_pairwise (pairwise_timed l)

/-- The last of a prefix, by its length. -/
theorem getElem?_of_prefix {pre : List α} (h : pre <+: l) :
    (if pre.length = 0 then none else l[pre.length - 1]?) = pre.getLast? := by
  obtain ⟨rest, rfl⟩ := h
  by_cases hempty : pre = []
  · simp [hempty]
  · have hlength : 0 < pre.length := List.length_pos_of_ne_nil hempty
    rw [if_neg (by omega), List.getLast?_eq_getElem?, List.getElem?_append_left (by omega)]

/-- **What is known at a time** is known from the samples up to any later time. -/
theorem asOf_filter (h : s ≤ t) (l : List α) :
    asOf time (l.filter (time · ≤ t)) s = asOf time l s := by
  unfold asOf
  rw [← filter_timed, List.filter_filter]
  congr 2
  funext a
  simp only [Bool.and_eq_left_iff_imp, decide_eq_true_eq]
  exact fun has => has.trans h

theorem asOf_eq_none : asOf time l t = none ↔ ∀ a ∈ l, t < time a := by
  rw [asOf, List.getLast?_eq_none_iff, List.filter_eq_nil_iff]
  simp

theorem mem_of_asOf (h : asOf time l t = some a) : a ∈ l ∧ time a ≤ t := by
  have hmem := List.mem_of_getLast? h
  simpa using hmem

/-- Something is known at the time of a sample, and later. -/
theorem exists_asOf (ha : a ∈ l) (h : time a ≤ t) : ∃ b, asOf time l t = some b := by
  rw [← Option.ne_none_iff_exists']
  intro hnone
  exact absurd h (not_le.mpr (asOf_eq_none.mp hnone a ha))

end Veridex.Lib

/-!
## Samples in blocks

Samples whose keys' times are apart are, in the order of times, one block after another
(`timed_blocks`); keys can be put apart in any order by an offset for each (`exists_offset`).
-/

namespace Veridex.Lib

variable {α κ : Type} {l : List α}

section Timed

variable {T : Type} [LinearOrder T] {time : α → T}

/-- A part that is before the rest comes first. -/
theorem split_of_pairwise {p : α → Bool} : ∀ {l : List α}, l.Pairwise (fun a b => time a ≤ time b) →
    (∀ a ∈ l, ∀ b ∈ l, p a = true → p b = false → time a < time b) →
    l = l.filter p ++ l.filter fun a => !p a
  | [], _, _ => rfl
  | a :: l, h, hp => by
    obtain ⟨ha, hl⟩ := List.pairwise_cons.mp h
    have hrest := split_of_pairwise hl fun b hb c hc =>
      hp b (List.mem_cons_of_mem _ hb) c (List.mem_cons_of_mem _ hc)
    cases hpa : p a with
    | true =>
      rw [List.filter_cons_of_pos hpa, List.filter_cons_of_neg (by simp [hpa]), List.cons_append,
        ← hrest]
    | false =>
      -- nothing of the part is left behind a sample that is not of it
      have hnone : l.filter p = [] := by
        rw [List.filter_eq_nil_iff]
        intro b hb hpb
        have hlt := hp b (List.mem_cons_of_mem _ hb) a List.mem_cons_self hpb hpa
        exact absurd (ha b hb) (not_le.mpr hlt)
      rw [hnone, List.nil_append] at hrest
      rw [List.filter_cons_of_neg (by simp [hpa]), hnone, List.nil_append,
        List.filter_cons_of_pos (by simp [hpa]), ← hrest]

theorem timed_split {p : α → Bool}
    (hp : ∀ a ∈ l, ∀ b ∈ l, p a = true → p b = false → time a < time b) :
    timed time l = timed time (l.filter p) ++ timed time (l.filter fun a => !p a) := by
  rw [← filter_timed, ← filter_timed]
  refine split_of_pairwise (pairwise_timed l) fun a ha b hb => ?_
  exact hp a (mem_timed.mp ha) b (mem_timed.mp hb)

/-- **Samples in blocks** are in the order of times what the blocks are, one after another. -/
theorem timed_blocks [DecidableEq κ] (key : α → κ) {order : List κ} (hnodup : order.Nodup)
    (hkeys : ∀ a ∈ l, key a ∈ order)
    (hapart : order.Pairwise fun k k' => ∀ a ∈ l, ∀ b ∈ l, key a = k → key b = k' → time a < time b) :
    timed time l = order.flatMap fun k => timed time (l.filter (key · = k)) := by
  induction order generalizing l with
  | nil =>
    have hnil : l = [] := List.eq_nil_iff_forall_not_mem.mpr fun a ha => by simpa using hkeys a ha
    rw [hnil]
    rfl
  | cons k order ih =>
    obtain ⟨hk, hnodup⟩ := List.nodup_cons.mp hnodup
    obtain ⟨hfirst, hapart⟩ := List.pairwise_cons.mp hapart
    have hother : ∀ a ∈ l, key a ≠ k → key a ∈ order := fun a ha hne =>
      (List.mem_cons.mp (hkeys a ha)).resolve_left hne
    rw [List.flatMap_cons, timed_split (p := (key · = k)) ?_]
    · congr 1
      rw [ih hnodup]
      · refine List.flatMap_congr fun k' hk' => ?_
        have hne : ∀ a, key a = k' → ¬ key a = k := by
          rintro a rfl rfl
          exact hk hk'
        rw [List.filter_filter]
        congr 2
        funext a
        by_cases hkey : key a = k'
        · simp [hkey, hkey ▸ hne a hkey]
        · simp [hkey]
      · intro a ha
        obtain ⟨ha, hne⟩ := List.mem_filter.mp ha
        exact hother a ha (by simpa using hne)
      · refine hapart.imp fun {k k'} h a ha b hb => ?_
        exact h a (List.mem_of_mem_filter ha) b (List.mem_of_mem_filter hb)
    · intro a ha b hb hka hkb
      rw [decide_eq_true_eq] at hka
      rw [decide_eq_false_iff_not] at hkb
      exact hfirst (key b) (hother b hb hkb) a ha b hb hka rfl

end Timed

/-- **Keys can be put apart** in any order, by an offset for each. -/
theorem exists_offset [DecidableEq κ] (key : α → κ) (time : α → ℤ) (l : List α) {order : List κ}
    (hnodup : order.Nodup) : ∃ offset : κ → ℤ, order.Pairwise fun k k' =>
      ∀ a ∈ l, ∀ b ∈ l, key a = k → key b = k' → time a + offset k < time b + offset k' := by
  obtain ⟨bound, hbound⟩ : ∃ bound : ℤ, ∀ a ∈ l, |time a| < bound := by
    induction l with
    | nil => exact ⟨0, fun a ha => absurd ha List.not_mem_nil⟩
    | cons a l ih =>
      obtain ⟨bound, hbound⟩ := ih
      refine ⟨max bound (|time a| + 1), fun b hb => ?_⟩
      rcases List.mem_cons.mp hb with rfl | hb
      · exact (lt_add_one _).trans_le (le_max_right _ _)
      · exact (hbound b hb).trans_le (le_max_left _ _)
  refine ⟨fun k => 2 * bound * order.idxOf k, ?_⟩
  rw [List.pairwise_iff_getElem]
  intro i j hi hj hij a ha b hb _ _
  have hplace : (i : ℤ) + 1 ≤ j := by exact_mod_cast hij
  simp only [hnodup.idxOf_getElem]
  have ha' := abs_lt.mp (hbound a ha)
  have hb' := abs_lt.mp (hbound b hb)
  have hpos : 0 ≤ bound := (abs_nonneg _).trans (hbound a ha).le
  nlinarith

end Veridex.Lib
