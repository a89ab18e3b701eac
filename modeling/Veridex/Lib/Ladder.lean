import Mathlib

/-!
# What a size costs on a ladder

A ladder is a list of levels, each a price and a size. `cost ladder x` takes `x` from its front. On a
ladder in the order of its prices that is the least cost of `x` over all ways to take it from the levels
(`isLeast_cost`), and the mean price does not fall when more is taken (`mean_mono`).
-/

namespace Veridex.Lib.Ladder

variable {K : Type} [Field K] [LinearOrder K] [IsStrictOrderedRing K]

/-- The size of all the levels. -/
def depth (ladder : List (K × K)) : K := (ladder.map Prod.snd).sum

/-- The cost of a size, taken from the front. -/
def cost : List (K × K) → K → K
  | [], _ => 0
  | (price, size) :: rest, x => price * min size x + cost rest (x - min size x)

/-- The levels have sizes that are not negative. -/
def Sized (ladder : List (K × K)) : Prop := ∀ level ∈ ladder, 0 ≤ level.2

/-- The levels are in the order of their prices. -/
def Priced (ladder : List (K × K)) : Prop := ladder.Pairwise fun a b => a.1 ≤ b.1

/-- A way to take some of each level: the levels, in any order, with what is taken of each. -/
structure Way (ladder : List (K × K)) (takes : List ((K × K) × K)) : Prop where
  levels : (takes.map Prod.fst).Perm ladder
  bounded : ∀ take ∈ takes, 0 ≤ take.2 ∧ take.2 ≤ take.1.2

/-- What a way takes. -/
def taken (takes : List ((K × K) × K)) : K := (takes.map Prod.snd).sum

/-- What a way costs. -/
def spent (takes : List ((K × K) × K)) : K := (takes.map fun take => take.1.1 * take.2).sum

variable {ladder : List (K × K)} {takes : List ((K × K) × K)} {price x y : K}

omit [LinearOrder K] [IsStrictOrderedRing K] in
theorem depth_cons (level : K × K) (rest : List (K × K)) :
    depth (level :: rest) = level.2 + depth rest := by
  rw [depth, List.map_cons, List.sum_cons, depth]

theorem depth_nonneg (h : Sized ladder) : 0 ≤ depth ladder :=
  List.sum_nonneg (List.forall_mem_map.mpr h)

omit [IsStrictOrderedRing K] in
theorem cost_zero (h : Sized ladder) : cost ladder 0 = 0 := by
  induction ladder with
  | nil => rfl
  | cons level rest ih =>
    obtain ⟨hlevel, hrest⟩ := List.forall_mem_cons.mp h
    rw [cost, min_eq_right hlevel, mul_zero, sub_zero, zero_add, ih hrest]

/-- **Where every price is at least some price**, more costs at least that price more. -/
theorem cost_slope (hsized : Sized ladder) (hprice : ∀ level ∈ ladder, price ≤ level.1) (hx : 0 ≤ x)
    (hxy : x ≤ y) (hy : y ≤ depth ladder) : price * (y - x) ≤ cost ladder y - cost ladder x := by
  induction ladder generalizing x y with
  | nil =>
    have hzero : y ≤ 0 := hy
    obtain rfl : x = y := le_antisymm hxy (hzero.trans hx)
    simp [cost]
  | cons level rest ih =>
    obtain ⟨p, s⟩ := level
    obtain ⟨hs, hrest⟩ := List.forall_mem_cons.mp hsized
    obtain ⟨hp, hprice⟩ := List.forall_mem_cons.mp hprice
    rw [depth_cons] at hy
    rw [cost, cost]
    rcases le_total y s with hys | hsy
    · -- both sizes are of the first level
      rw [min_eq_right hys, min_eq_right (hxy.trans hys), sub_self, sub_self, cost_zero hrest]
      have := mul_le_mul_of_nonneg_right hp (sub_nonneg.mpr hxy)
      linarith
    · rw [min_eq_left hsy]
      rcases le_total x s with hxs | hsx
      · rw [min_eq_right hxs, sub_self, cost_zero hrest]
        have hmore := ih hrest hprice le_rfl (sub_nonneg.mpr hsy) (by linarith)
        rw [cost_zero hrest, sub_zero, sub_zero] at hmore
        have := mul_le_mul_of_nonneg_right hp (sub_nonneg.mpr hxs)
        linarith
      · rw [min_eq_left hsx]
        have hmore := ih hrest hprice (sub_nonneg.mpr hsx) (sub_le_sub_right hxy s) (by linarith)
        linarith

/-- **Taking from the front** costs no more than any way to take as much. -/
theorem cost_le_spent (hpriced : Priced ladder) (hlevels : takes.map Prod.fst = ladder)
    (hbounded : ∀ take ∈ takes, 0 ≤ take.2 ∧ take.2 ≤ take.1.2) :
    cost ladder (taken takes) ≤ spent takes := by
  induction takes generalizing ladder with
  | nil =>
    subst hlevels
    simp [cost, spent]
  | cons take takes ih =>
    obtain ⟨⟨p, s⟩, a⟩ := take
    subst hlevels
    obtain ⟨⟨ha, has⟩, hrest⟩ := List.forall_mem_cons.mp hbounded
    obtain ⟨hfirst, hpriced⟩ := List.pairwise_cons.mp hpriced
    have hih := ih hpriced rfl hrest
    have hsized : Sized (takes.map Prod.fst) := by
      intro level hlevel
      obtain ⟨take, htake, rfl⟩ := List.mem_map.mp hlevel
      exact (hrest take htake).1.trans (hrest take htake).2
    have hmore : 0 ≤ taken takes := List.sum_nonneg (List.forall_mem_map.mpr fun take htake =>
      (hrest take htake).1)
    have hdepth : taken takes ≤ depth (takes.map Prod.fst) := by
      rw [taken, depth, List.map_map]
      exact List.sum_le_sum fun take htake => (hrest take htake).2
    have htaken : taken (((p, s), a) :: takes) = a + taken takes := rfl
    have hspent : spent (((p, s), a) :: takes) = p * a + spent takes := rfl
    rw [htaken, hspent, List.map_cons, cost]
    have hmin : a ≤ min s (a + taken takes) := le_min has (le_add_of_nonneg_right hmore)
    -- what the front gives more is taken off the rest, which is dearer
    have hslope := cost_slope hsized hfirst
      (sub_nonneg.mpr (min_le_right s (a + taken takes)))
      (y := taken takes) (by linarith) hdepth
    linarith

omit [IsStrictOrderedRing K] in
theorem Way.perm {ladder' : List (K × K)} (hway : Way ladder takes) (h : ladder.Perm ladder') :
    Way ladder' takes :=
  ⟨hway.levels.trans h, hway.bounded⟩

omit [IsStrictOrderedRing K] in
/-- The levels of a way in the order of the ladder. -/
theorem Way.exists_sorted (hway : Way ladder takes) :
    ∃ takes' : List ((K × K) × K), takes'.Perm takes ∧ takes'.map Prod.fst = ladder := by
  have hsame : List.Forall₂ (fun level (take : (K × K) × K) => level = take.1)
      (takes.map Prod.fst) takes :=
    List.forall₂_map_left_iff.mpr (List.forall₂_same.mpr fun _ _ => rfl)
  obtain ⟨takes', hall, hperm⟩ := List.perm_comp_forall₂ hway.levels.symm hsame
  refine ⟨takes', hperm, ?_⟩
  rw [← List.forall₂_eq_eq_eq, List.forall₂_map_left_iff]
  exact (hall.imp fun _ _ h => h.symm).flip

/-- **There is a way** to take a size from the front. -/
theorem exists_way (hsized : Sized ladder) (hx : 0 ≤ x) (hdepth : x ≤ depth ladder) :
    ∃ takes, Way ladder takes ∧ taken takes = x ∧ spent takes = cost ladder x := by
  induction ladder generalizing x with
  | nil =>
    obtain rfl : x = 0 := le_antisymm hdepth hx
    exact ⟨[], ⟨.refl _, fun _ h => absurd h List.not_mem_nil⟩, rfl, rfl⟩
  | cons level rest ih =>
    obtain ⟨p, s⟩ := level
    obtain ⟨hs, hrest⟩ := List.forall_mem_cons.mp hsized
    rw [depth_cons] at hdepth
    have hless : x - min s x ≤ depth rest := by
      have hnonneg := depth_nonneg hrest
      rcases min_choice s x with hmin | hmin <;> rw [hmin] <;> linarith
    obtain ⟨takes, hway, htaken, hspent⟩ :=
      ih hrest (sub_nonneg.mpr (min_le_right s x)) hless
    refine ⟨((p, s), min s x) :: takes, ⟨hway.levels.cons _, ?_⟩, ?_, ?_⟩
    · exact List.forall_mem_cons.mpr ⟨⟨le_min hs hx, min_le_left _ _⟩, hway.bounded⟩
    · have hcons : taken (((p, s), min s x) :: takes) = min s x + taken takes := rfl
      rw [hcons, htaken, add_sub_cancel]
    · have hcons : spent (((p, s), min s x) :: takes) = p * min s x + spent takes := rfl
      rw [hcons, hspent, cost]

/-- **The cost of a size** is the least over all ways to take it. -/
theorem isLeast_cost (hsized : Sized ladder) (hpriced : Priced ladder) (hx : 0 ≤ x)
    (hdepth : x ≤ depth ladder) :
    IsLeast {c | ∃ takes, Way ladder takes ∧ taken takes = x ∧ spent takes = c} (cost ladder x) := by
  constructor
  · exact exists_way hsized hx hdepth
  · rintro c ⟨takes, hway, rfl, rfl⟩
    obtain ⟨takes', hperm, hlevels⟩ := hway.exists_sorted
    have hle := cost_le_spent hpriced hlevels fun take htake =>
      hway.bounded take (hperm.mem_iff.mp htake)
    rwa [taken, (hperm.map _).sum_eq, spent, (hperm.map _).sum_eq] at hle

/-- **The mean price** of more is no less. -/
theorem mean_mono (hsized : Sized ladder) (hpriced : Priced ladder) (hx : 0 ≤ x) (hxy : x ≤ y)
    (hy : y ≤ depth ladder) : y * cost ladder x ≤ x * cost ladder y := by
  induction ladder generalizing x y with
  | nil => simp [cost]
  | cons level rest ih =>
    obtain ⟨p, s⟩ := level
    have hfirst : ∀ level ∈ (p, s) :: rest, p ≤ level.1 :=
      List.forall_mem_cons.mpr ⟨le_rfl, (List.pairwise_cons.mp hpriced).1⟩
    have hfull : p * (y - 0) ≤ cost ((p, s) :: rest) y - cost ((p, s) :: rest) 0 :=
      cost_slope hsized hfirst le_rfl (hx.trans hxy) hy
    obtain ⟨hs, hrest⟩ := List.forall_mem_cons.mp hsized
    rcases le_total x s with hxs | hsx
    · -- the smaller size is all of the first price
      have hcost : cost ((p, s) :: rest) x = p * x := by
        rw [cost, min_eq_right hxs, sub_self, cost_zero hrest, add_zero]
      rw [cost_zero hsized, sub_zero, sub_zero] at hfull
      rw [hcost]
      nlinarith [mul_le_mul_of_nonneg_left hfull hx]
    · have hsy : s ≤ y := hsx.trans hxy
      rw [depth_cons] at hy
      have hrestmono := ih hrest (List.pairwise_cons.mp hpriced).2 (sub_nonneg.mpr hsx)
        (sub_le_sub_right hxy s) (by linarith)
      have hmore := cost_slope hrest (List.pairwise_cons.mp hpriced).1 (sub_nonneg.mpr hsx)
        (sub_le_sub_right hxy s) (by linarith)
      rw [cost, cost, min_eq_left hsx, min_eq_left hsy]
      nlinarith [mul_le_mul_of_nonneg_left hmore hs]

end Veridex.Lib.Ladder
