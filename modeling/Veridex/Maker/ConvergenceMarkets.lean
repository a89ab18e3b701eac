import Veridex.Maker.Convergence

/-!
# Convergence and markets

The reach of a tape is over one series, and its steps are from market to market wherever two of them
meet in time. `Separate` is what it is said to be: the steps within the markets, whatever the markets'
times are to one another.

Results: `alike_of_turns`, `separate_iff`.
-/

namespace Veridex.Maker

open Veridex.Py Veridex.Lib

/-! ## Series, one after another -/

/-- The steps of a series that shrink. -/
def shrinks (series : List ℤ) : ℕ := (steps series).countP (Shrank ·)

/-- The step from the end of a series to the start of the next one. -/
def crossing (xs ys : List ℤ) : ℕ := if |ys.headD 0| < |xs.getLastD 0| then 1 else 0

/-- The steps within several series: how many of them shrink. -/
def reachWithin (series : List (List ℤ)) : Option ℚ :=
  let within := series.flatMap steps
  if within = [] then none else some (within.countP (Shrank ·) / within.length)

section Series

variable {xs ys : List ℤ} {series : List (List ℤ)}

theorem steps_singleton (a : ℤ) : steps [a] = [] := by simp [steps]

theorem length_steps : ∀ xs : List ℤ, (steps xs).length = xs.length - 1
  | [] => by simp [steps]
  | [_] => by simp [steps]
  | _ :: b :: rest => by
    rw [steps, List.length_cons, length_steps (b :: rest), List.length_cons, List.length_cons]
    rfl

theorem shrinks_singleton (a : ℤ) : shrinks [a] = 0 := by
  rw [shrinks, steps_singleton, List.countP_nil]

theorem shrinks_cons_cons (a b : ℤ) (xs : List ℤ) :
    shrinks (a :: b :: xs) = shrinks (b :: xs) + if |b| < |a| then 1 else 0 := by
  rw [shrinks, steps, List.countP_cons, shrinks]
  exact congrArg _ (if_congr decide_eq_true_iff rfl rfl)

theorem shrinks_append : ∀ {xs ys : List ℤ}, xs ≠ [] → ys ≠ [] →
    shrinks (xs ++ ys) = shrinks xs + crossing xs ys + shrinks ys
  | [], _, hxs, _ => absurd rfl hxs
  | _, [], _, hys => absurd rfl hys
  | [a], b :: ys, _, _ => by
    rw [List.singleton_append, shrinks_cons_cons, shrinks_singleton, Nat.zero_add, Nat.add_comm]
    rfl
  | a :: a' :: xs, b :: ys, _, _ => by
    have hrest := shrinks_append (List.cons_ne_nil a' xs) (List.cons_ne_nil b ys)
    have hcrossing : crossing (a :: a' :: xs) (b :: ys) = crossing (a' :: xs) (b :: ys) := by
      simp only [crossing, List.getLastD_cons]
    rw [List.cons_append, List.cons_append, shrinks_cons_cons, shrinks_cons_cons, hcrossing,
      ← List.cons_append, hrest]
    omega

theorem shrinks_le (xs : List ℤ) : shrinks xs ≤ xs.length - 1 := by
  rw [← length_steps]
  exact List.countP_le_length

/-- The series does not shrink: its magnitudes grow from its first value on. -/
theorem pairwise_of_shrinks_eq_zero : ∀ {xs : List ℤ}, shrinks xs = 0 →
    xs.Pairwise fun a b => |a| ≤ |b|
  | [], _ => List.Pairwise.nil
  | [a], _ => List.pairwise_singleton _ _
  | a :: b :: xs, h => by
    rw [shrinks_cons_cons] at h
    have hrest : (b :: xs).Pairwise fun a b => |a| ≤ |b| :=
      pairwise_of_shrinks_eq_zero (by omega)
    have hab : |a| ≤ |b| := by
      by_contra hlt
      rw [if_pos (not_le.mp hlt)] at h
      omega
    refine List.pairwise_cons.mpr ⟨fun c hc => ?_, hrest⟩
    rcases List.mem_cons.mp hc with rfl | hc
    · exact hab
    · exact hab.trans ((List.pairwise_cons.mp hrest).1 c hc)

/-- The series always shrinks: its magnitudes fall. -/
theorem pairwise_of_shrinks_eq_length : ∀ {xs : List ℤ}, shrinks xs = xs.length - 1 →
    xs.Pairwise fun a b => |b| < |a|
  | [], _ => List.Pairwise.nil
  | [a], _ => List.pairwise_singleton _ _
  | a :: b :: xs, h => by
    have hle := shrinks_le (b :: xs)
    rw [List.length_cons, Nat.add_sub_cancel] at hle
    rw [shrinks_cons_cons, List.length_cons, List.length_cons, Nat.add_sub_cancel] at h
    have hba : |b| < |a| := by
      by_contra hnot
      rw [if_neg hnot] at h
      omega
    rw [if_pos hba] at h
    have hlength : shrinks (b :: xs) = (b :: xs).length - 1 := by
      rw [List.length_cons, Nat.add_sub_cancel]
      omega
    have hrest := pairwise_of_shrinks_eq_length hlength
    refine List.pairwise_cons.mpr ⟨fun c hc => ?_, hrest⟩
    rcases List.mem_cons.mp hc with rfl | hc
    · exact hba
    · exact ((List.pairwise_cons.mp hrest).1 c hc).trans hba

/-- A series whose magnitudes grow, and end where they began, has one magnitude. -/
theorem alike_of_pairwise {magnitude : ℤ} (h : xs.Pairwise fun a b => |a| ≤ |b|)
    (hfirst : magnitude ≤ |xs.headD 0|) (hlast : |xs.getLastD 0| ≤ magnitude) {x : ℤ} (hx : x ∈ xs) :
    |x| = magnitude := by
  have hne : xs ≠ [] := List.ne_nil_of_mem hx
  refine le_antisymm (le_trans ?_ hlast) (hfirst.trans ?_)
  · rw [← List.dropLast_append_getLast hne] at h hx ⊢
    rw [List.getLastD_concat]
    rcases List.mem_append.mp hx with hx | hx
    · exact (List.pairwise_append.mp h).2.2 x hx _ (List.mem_singleton_self _)
    · rw [List.mem_singleton.mp hx]
  · obtain ⟨a, xs, rfl⟩ := List.exists_cons_of_ne_nil hne
    rcases List.mem_cons.mp hx with rfl | hx
    · exact le_rfl
    · exact (List.pairwise_cons.mp h).1 x hx

theorem flatten_ne_nil (hfull : ∀ xs ∈ series, xs ≠ []) (hne : series ≠ []) :
    series.flatten ≠ [] := by
  obtain ⟨xs, rest, rfl⟩ := List.exists_cons_of_ne_nil hne
  rw [List.flatten_cons]
  exact List.append_ne_nil_of_left_ne_nil (hfull xs List.mem_cons_self) _

/-- **The steps of series in a row**, where every two that meet cross alike. -/
theorem shrinks_flatten {cross : ℕ} (hfull : ∀ xs ∈ series, xs ≠ []) (hne : series ≠ [])
    (hcross : ∀ front back, series = front ++ back → front ≠ [] → back ≠ [] →
      crossing front.flatten back.flatten = cross) :
    shrinks series.flatten = (series.map shrinks).sum + (series.length - 1) * cross := by
  induction series with
  | nil => exact absurd rfl hne
  | cons xs rest ih =>
    by_cases hrest : rest = []
    · subst hrest
      simp [shrinks]
    · have hfull' : ∀ ys ∈ rest, ys ≠ [] := fun ys hys => hfull ys (List.mem_cons_of_mem _ hys)
      have hback := flatten_ne_nil hfull' hrest
      have hxs := hfull xs List.mem_cons_self
      have hfirst : crossing xs rest.flatten = cross := by
        simpa using hcross [xs] rest rfl (List.cons_ne_nil _ _) hrest
      have hlater : ∀ front back, rest = front ++ back → front ≠ [] → back ≠ [] →
          crossing front.flatten back.flatten = cross := by
        rintro front back rfl hfront hbackne
        have hlong := hcross (xs :: front) back rfl (List.cons_ne_nil _ _) hbackne
        have hfrontne := flatten_ne_nil (fun ys hys => hfull' ys (List.mem_append_left _ hys)) hfront
        rw [← hlong, List.flatten_cons, crossing, crossing, List.getLastD_eq_getLast?,
          List.getLastD_eq_getLast?, List.getLast?_append_of_ne_nil _ hfrontne]
      rw [List.flatten_cons, shrinks_append hxs hback, ih hfull' hrest hlater, hfirst, List.map_cons,
        List.sum_cons, List.length_cons]
      obtain ⟨k, hk⟩ := Nat.exists_eq_succ_of_ne_zero (List.length_pos_of_ne_nil hrest).ne'
      rw [hk, Nat.succ_sub_one, Nat.add_sub_cancel, Nat.succ_mul]
      omega

/-- The steps within series. -/
theorem countP_within (series : List (List ℤ)) :
    (series.flatMap steps).countP (Shrank ·) = (series.map shrinks).sum := by
  rw [List.countP_flatMap]
  rfl

theorem length_within (hfull : ∀ xs ∈ series, xs ≠ []) :
    (series.flatMap steps).length + series.length = series.flatten.length := by
  induction series with
  | nil => rfl
  | cons xs rest ih =>
    have hrest := ih fun ys hys => hfull ys (List.mem_cons_of_mem _ hys)
    have hxs := List.length_pos_of_ne_nil (hfull xs List.mem_cons_self)
    rw [List.flatMap_cons, List.length_append, List.flatten_cons, List.length_append, length_steps,
      List.length_cons]
    omega

/-- A turn of the order: the series from some place on, then those before it. -/
def IsTurn (series turned : List (List ℤ)) : Prop :=
  ∃ front back, series = front ++ back ∧ turned = back ++ front

/-- Every two series that meet in a turn cross as its end and its start do. -/
theorem crossing_of_turns (hfull : ∀ xs ∈ series, xs ≠ [])
    (hturn : ∀ turned, IsTurn series turned → shrinks turned.flatten = shrinks series.flatten)
    {front back : List (List ℤ)} (h : series = front ++ back) (hfront : front ≠ [])
    (hback : back ≠ []) :
    crossing front.flatten back.flatten = crossing series.flatten series.flatten := by
  have hfront' := flatten_ne_nil (fun ys hys => hfull ys (h ▸ List.mem_append_left _ hys)) hfront
  have hback' := flatten_ne_nil (fun ys hys => hfull ys (h ▸ List.mem_append_right _ hys)) hback
  have hturned := hturn (back ++ front) ⟨front, back, h, rfl⟩
  rw [h, List.flatten_append, List.flatten_append, shrinks_append hback' hfront',
    shrinks_append hfront' hback'] at hturned
  -- the end of the turn is that of its last series, and its start that of its first
  have hends : crossing series.flatten series.flatten = crossing back.flatten front.flatten := by
    obtain ⟨x, xs, hx⟩ := List.exists_cons_of_ne_nil hfront'
    rw [h, List.flatten_append, crossing, crossing, List.getLastD_eq_getLast?,
      List.getLastD_eq_getLast?, List.getLast?_append_of_ne_nil _ hback', hx, List.cons_append,
      List.headD_cons, List.headD_cons]
  omega

/-- **Series whose reach is that of their own steps**, in every turn of their order, are of one
magnitude: what shrank from one to the next would have to grow again on the way around. -/
theorem alike_of_turns (hfull : ∀ xs ∈ series, xs ≠ []) (hmany : 2 ≤ series.length)
    (hturn : ∀ turned, IsTurn series turned →
      reachFromResidual turned.flatten = reachWithin series) :
    series.flatMap steps ≠ [] ∧ ∃ magnitude, ∀ x ∈ series.flatten, |x| = magnitude := by
  have hne : series ≠ [] := List.ne_nil_of_length_pos (by omega)
  have hlength := length_within hfull
  have hself : IsTurn series series := ⟨[], series, rfl, (List.append_nil _).symm⟩
  have hsize : ∀ turned, IsTurn series turned → turned.flatten.length = series.flatten.length := by
    rintro turned ⟨front, back, rfl, rfl⟩
    rw [List.flatten_append, List.flatten_append, List.length_append, List.length_append,
      Nat.add_comm]
  -- two series and more have a reach, so there is a step within one
  have hwithin : series.flatMap steps ≠ [] := by
    intro hnone
    have hreach := hturn series hself
    rw [reachWithin, if_pos hnone, reachFromResidual, if_neg (by omega)] at hreach
    exact nomatch hreach
  have hsteps : 0 < (series.flatMap steps).length := List.length_pos_of_ne_nil hwithin
  have hratio : ∀ turned, IsTurn series turned →
      shrinks turned.flatten * (series.flatMap steps).length =
        (series.map shrinks).sum * (series.flatten.length - 1) := by
    intro turned hturned
    have hreach := hturn turned hturned
    rw [reachWithin, if_neg hwithin, reachFromResidual, if_neg (by rw [hsize turned hturned]; omega),
      Option.some.injEq, countP_within, hsize turned hturned] at hreach
    have hn : ((series.flatten.length - 1 : ℕ) : ℚ) ≠ 0 := Nat.cast_ne_zero.mpr (by omega)
    have hk : ((series.flatMap steps).length : ℚ) ≠ 0 := Nat.cast_ne_zero.mpr hsteps.ne'
    rw [div_eq_div_iff hn hk] at hreach
    exact_mod_cast hreach
  have hsame : ∀ turned, IsTurn series turned → shrinks turned.flatten = shrinks series.flatten :=
    fun turned hturned => Nat.eq_of_mul_eq_mul_right hsteps
      ((hratio turned hturned).trans (hratio series hself).symm)
  have hsum := shrinks_flatten hfull hne fun front back h hfront hback =>
    crossing_of_turns hfull hsame h hfront hback
  have hall := hratio series hself
  have hcrossing : crossing series.flatten series.flatten = 0 ∨
      crossing series.flatten series.flatten = 1 := by
    rw [crossing]
    split_ifs
    · exact .inr rfl
    · exact .inl rfl
  refine ⟨hwithin, |series.flatten.getLastD 0|, ?_⟩
  obtain ⟨m, hm⟩ : ∃ m, series.length = m + 2 := ⟨series.length - 2, by omega⟩
  rcases hcrossing with hzero | hone
  · -- nothing shrinks, on the way around neither
    rw [hzero, Nat.mul_zero, Nat.add_zero] at hsum
    have hnone : shrinks series.flatten = 0 := by
      rw [hsum] at hall ⊢
      have hlt : (series.flatMap steps).length < series.flatten.length - 1 := by omega
      by_contra hpos
      exact absurd hall (Nat.mul_lt_mul_of_pos_left hlt (Nat.pos_of_ne_zero hpos)).ne
    have hends : |series.flatten.getLastD 0| ≤ |series.flatten.headD 0| := by
      by_contra hlt
      rw [crossing, if_pos (not_le.mp hlt)] at hzero
      exact one_ne_zero hzero
    exact fun x hx => alike_of_pairwise (pairwise_of_shrinks_eq_zero hnone) hends le_rfl hx
  · -- every step shrinks, and so does the one back to the start
    rw [hone, Nat.mul_one] at hsum
    have hfalls : shrinks series.flatten = series.flatten.length - 1 := by
      have hn : series.flatten.length - 1 = (series.flatMap steps).length + (m + 1) := by omega
      have hm' : series.length - 1 = m + 1 := by omega
      rw [hsum, hn, hm', Nat.add_mul, Nat.mul_add, Nat.add_left_cancel_iff, Nat.mul_comm] at hall
      rw [hsum, hn, hm', Nat.eq_of_mul_eq_mul_right (Nat.succ_pos m) hall]
    have hhead : |series.flatten.headD 0| < |series.flatten.getLastD 0| := by
      by_contra hnot
      rw [crossing, if_neg hnot] at hone
      exact zero_ne_one hone
    have hpair := pairwise_of_shrinks_eq_length hfalls
    obtain ⟨x, rest, hx⟩ := List.exists_cons_of_ne_nil (flatten_ne_nil hfull hne)
    rw [hx, List.headD_cons, List.getLastD_cons] at hhead
    rw [hx] at hpair
    cases hrest : rest.getLast? with
    | none =>
      rw [List.getLastD_eq_getLast?, hrest] at hhead
      exact absurd hhead (lt_irrefl _)
    | some y =>
      rw [List.getLastD_eq_getLast?, hrest] at hhead
      have hy := (List.pairwise_cons.mp hpair).1 y (List.mem_of_getLast? hrest)
      exact absurd (hhead.trans hy) (lt_irrefl _)

theorem reachWithin_singleton (xs : List ℤ) : reachWithin [xs] = reachFromResidual xs := by
  have hlength := length_steps xs
  rw [reachWithin, List.flatMap_singleton, reachFromResidual]
  by_cases hshort : xs.length < 2
  · rw [if_pos hshort, if_pos (List.length_eq_zero_iff.mp (by omega))]
  · rw [if_neg hshort, if_neg (List.ne_nil_of_length_pos (by omega)), hlength]

theorem shrinks_of_alike {magnitude : ℤ} : ∀ {xs : List ℤ}, (∀ x ∈ xs, |x| = magnitude) →
    shrinks xs = 0
  | [], _ => by simp [shrinks, steps]
  | [a], _ => shrinks_singleton a
  | a :: b :: xs, h => by
    obtain ⟨ha, hrest⟩ := List.forall_mem_cons.mp h
    have hb := hrest b List.mem_cons_self
    rw [shrinks_cons_cons, shrinks_of_alike hrest, if_neg (by rw [ha, hb]; exact lt_irrefl _)]

/-- Values of one magnitude never shrink. -/
theorem reach_of_alike {magnitude : ℤ} (hlength : 2 ≤ xs.length) (h : ∀ x ∈ xs, |x| = magnitude) :
    reachFromResidual xs = some 0 := by
  have hzero : (steps xs).countP (Shrank ·) = 0 := shrinks_of_alike h
  rw [reachFromResidual, if_neg (by omega), hzero, Nat.cast_zero, zero_div]

theorem reachWithin_of_alike (magnitude : ℤ) (hlength : ∃ xs ∈ series, 2 ≤ xs.length)
    (h : ∀ xs ∈ series, ∀ x ∈ xs, |x| = magnitude) : reachWithin series = some 0 := by
  have hsome : series.flatMap steps ≠ [] := by
    obtain ⟨xs, hxs, htwo⟩ := hlength
    have hsteps : steps xs ≠ [] := List.ne_nil_of_length_pos (by rw [length_steps]; omega)
    obtain ⟨step, hstep⟩ := List.exists_mem_of_ne_nil _ hsteps
    exact List.ne_nil_of_mem (List.mem_flatMap.mpr ⟨xs, hxs, hstep⟩)
  have hzero : (series.map shrinks).sum = 0 := by
    rw [List.sum_eq_zero_iff]
    exact List.forall_mem_map.mpr fun xs hxs => shrinks_of_alike (h xs hxs)
  rw [reachWithin, if_neg hsome, countP_within, hzero, Nat.cast_zero, zero_div]

end Series

/-! ## The markets of a tape -/

/-- The residuals of a tape, market by market. -/
def residualSeries (tape : List MakerRow) : List (List ℤ) :=
  (grouped MakerRow.market (midRows tape)).map fun group => group.2.map (residual (basisOf tape))

/-- The fraction of the steps within the markets whose residual shrank. -/
def marketReach (tape : List MakerRow) : Option ℚ := reachWithin (residualSeries tape)

/-- The row, at another time of its market. -/
def MakerRow.shift (offset : Market → ℤ) (row : MakerRow) : MakerRow :=
  { row with ts := row.ts + offset row.market }

/-- What is reported of a tape is of its markets alone, whatever their times are to one another. -/
def Separate (tape : List MakerRow) (horizonsS : List ℤ) : Prop :=
  ∀ report, convergence tape horizonsS = .ok (some report) →
    report.residualReachFraction = marketReach tape ∧
      ∀ offset, ∃ report',
        convergence (tape.map (MakerRow.shift offset)) horizonsS = .ok (some report') ∧
          report'.residualReachFraction = report.residualReachFraction

/-- The rows with a mid are of one market. -/
def OneMarket (tape : List MakerRow) : Prop :=
  ∀ row ∈ midRows tape, ∀ row' ∈ midRows tape, row.market = row'.market

/-- Every residual has one magnitude, and a market has two rows with a mid. -/
def OneMagnitude (tape : List MakerRow) : Prop :=
  (∃ market, 2 ≤ ((midRows tape).filter (·.market = market)).length) ∧
    ∃ magnitude, ∀ row ∈ midRows tape, |residual (basisOf tape) row| = magnitude

section Tape

variable {tape : List MakerRow} {offset : Market → ℤ} {horizonsS : List ℤ}

theorem midRows_eq (tape : List MakerRow) :
    midRows tape = timed MakerRow.ts (tape.filter fun row => row.mid.isSome) :=
  filter_timed _ tape

theorem midRows_shift_perm (tape : List MakerRow) (offset : Market → ℤ) :
    (midRows (tape.map (MakerRow.shift offset))).Perm ((midRows tape).map (MakerRow.shift offset)) := by
  rw [midRows_eq, midRows_eq, List.filter_map]
  exact (timed_perm _).trans ((timed_perm _).symm.map _)

theorem median_perm {samples samples' : List ℚ} (h : samples.Perm samples') :
    median samples = median samples' := by
  have hsorted : samples.insertionSort (· ≤ ·) = samples'.insertionSort (· ≤ ·) :=
    ((List.perm_insertionSort _ _).trans (h.trans (List.perm_insertionSort _ _).symm)).eq_of_pairwise
      (fun _ _ _ _ => le_antisymm) (List.pairwise_insertionSort _ _) (List.pairwise_insertionSort _ _)
  rw [median, median, hsorted]

/-- **The basis** does not see the times. -/
theorem basisOf_shift (tape : List MakerRow) (offset : Market → ℤ) :
    basisOf (tape.map (MakerRow.shift offset)) = basisOf tape := by
  have hgaps := (midRows_shift_perm tape offset).map MakerRow.gap
  rw [List.map_map] at hgaps
  exact congrArg pyRound (median_perm hgaps)

theorem nativeTape_shift (h : NativeTape tape) (offset : Market → ℤ) :
    NativeTape (tape.map (MakerRow.shift offset)) := by
  intro row hrow
  obtain ⟨row, hmid, rfl⟩ := List.mem_map.mp ((midRows_shift_perm tape offset).mem_iff.mp hrow)
  exact h row hmid

/-- **Markets that are apart in time** stand one after another. -/
theorem midRows_shift {order : List Market} (hnodup : order.Nodup)
    (hkeys : ∀ row ∈ midRows tape, row.market ∈ order)
    (hapart : order.Pairwise fun k k' => ∀ row ∈ midRows tape, ∀ row' ∈ midRows tape,
      row.market = k → row'.market = k' → row.ts + offset k < row'.ts + offset k') :
    midRows (tape.map (MakerRow.shift offset)) = order.flatMap fun k =>
      ((midRows tape).filter (·.market = k)).map (MakerRow.shift offset) := by
  have hmem : ∀ {row}, row ∈ tape.filter (fun row => row.mid.isSome) ↔ row ∈ midRows tape := by
    intro row
    rw [midRows_eq, mem_timed]
  rw [midRows_eq, List.filter_map]
  rw [timed_blocks MakerRow.market hnodup]
  · refine List.flatMap_congr fun k _ => ?_
    rw [List.filter_map, midRows_eq, filter_timed]
    -- within one market the offset is one, so the order is as it was
    refine (List.map_insertionSort _ _ (MakerRow.shift offset) _ fun a ha b hb => ?_).symm
    have hka := of_decide_eq_true (p := a.market = k) (List.mem_filter.mp ha).2
    have hkb := of_decide_eq_true (p := b.market = k) (List.mem_filter.mp hb).2
    rw [MakerRow.shift, MakerRow.shift, hka, hkb]
    exact (add_le_add_iff_right _).symm
  · intro row hrow
    obtain ⟨row, hmid, rfl⟩ := List.mem_map.mp hrow
    exact hkeys row (hmem.mp hmid)
  · refine hapart.imp fun {k k'} h a ha b hb hka hkb => ?_
    obtain ⟨row, hrow, rfl⟩ := List.mem_map.mp ha
    obtain ⟨row', hrow', rfl⟩ := List.mem_map.mp hb
    have hlt := h row (hmem.mp hrow) row' (hmem.mp hrow') hka hkb
    rwa [← hka, ← hkb] at hlt

theorem market_mem_keys {row : MakerRow} (h : row ∈ midRows tape) :
    row.market ∈ (grouped MakerRow.market (midRows tape)).map Prod.fst := by
  have hmem : row ∈ (grouped MakerRow.market (midRows tape)).flatMap Prod.snd :=
    (grouped_perm (midRows tape)).mem_iff.mpr h
  obtain ⟨group, hgroup, hin⟩ := List.mem_flatMap.mp hmem
  rw [mem_grouped (k := group.1) hgroup] at hin
  have hkey := of_decide_eq_true (p := row.market = group.1) (List.mem_filter.mp hin).2
  exact hkey ▸ List.mem_map_of_mem hgroup

/-- The series of a tape whose markets are apart. -/
theorem residuals_shift {groups : List (Market × List MakerRow)}
    (hperm : groups.Perm (grouped MakerRow.market (midRows tape)))
    (hapart : (groups.map Prod.fst).Pairwise fun k k' => ∀ row ∈ midRows tape, ∀ row' ∈ midRows tape,
      row.market = k → row'.market = k' → row.ts + offset k < row'.ts + offset k') :
    (midRows (tape.map (MakerRow.shift offset))).map
        (residual (basisOf (tape.map (MakerRow.shift offset)))) =
      (groups.map fun group => group.2.map (residual (basisOf tape))).flatten := by
  have hnodup : (groups.map Prod.fst).Nodup :=
    (hperm.map Prod.fst).nodup_iff.mpr (nodup_grouped (midRows tape))
  have hkeys : ∀ row ∈ midRows tape, row.market ∈ groups.map Prod.fst := fun row hrow =>
    (hperm.map Prod.fst).mem_iff.mpr (market_mem_keys hrow)
  rw [midRows_shift hnodup hkeys hapart, basisOf_shift, List.map_flatMap, List.flatMap_map,
    ← List.flatMap_def]
  refine List.flatMap_congr fun group hgroup => ?_
  rw [List.map_map, ← mem_grouped (k := group.1) (hperm.mem_iff.mp hgroup)]
  rfl

theorem residualSeries_ne_nil : ∀ xs ∈ residualSeries tape, xs ≠ [] := by
  intro xs hxs
  obtain ⟨group, hgroup, rfl⟩ := List.mem_map.mp hxs
  rw [ne_eq, List.map_eq_nil_iff]
  exact grouped_ne_nil _ group hgroup

/-- **Every turn of the markets** is the series of a shifted tape. -/
theorem exists_shift {turned : List (List ℤ)} (h : IsTurn (residualSeries tape) turned) :
    ∃ offset, (midRows (tape.map (MakerRow.shift offset))).map
      (residual (basisOf (tape.map (MakerRow.shift offset)))) = turned.flatten := by
  obtain ⟨front, back, hseries, rfl⟩ := h
  obtain ⟨gfront, gback, hgroups, rfl, rfl⟩ := List.map_eq_append_iff.mp hseries
  have hperm : (gback ++ gfront).Perm (grouped MakerRow.market (midRows tape)) :=
    hgroups ▸ List.perm_append_comm
  have hnodup : ((gback ++ gfront).map Prod.fst).Nodup :=
    (hperm.map Prod.fst).nodup_iff.mpr (nodup_grouped (midRows tape))
  obtain ⟨offset, hapart⟩ := exists_offset MakerRow.market MakerRow.ts (midRows tape) hnodup
  refine ⟨offset, ?_⟩
  rw [residuals_shift hperm hapart, List.map_append]

/-- The residuals of a shifted tape are those of the tape, in some order. -/
theorem residuals_shift_perm (tape : List MakerRow) (offset : Market → ℤ) :
    ((midRows (tape.map (MakerRow.shift offset))).map
      (residual (basisOf (tape.map (MakerRow.shift offset))))).Perm
        ((midRows tape).map (residual (basisOf tape))) := by
  have hperm := (midRows_shift_perm tape offset).map (residual (basisOf tape))
  rw [List.map_map] at hperm
  rw [basisOf_shift]
  exact hperm

/-- **A tape of one market** is separate. -/
theorem reach_of_oneMarket (hne : midRows tape ≠ []) (h : OneMarket tape) (offset : Market → ℤ) :
    reachFromResidual ((midRows (tape.map (MakerRow.shift offset))).map
      (residual (basisOf (tape.map (MakerRow.shift offset))))) = marketReach tape := by
  obtain ⟨row, rest, hrow⟩ := List.exists_cons_of_ne_nil hne
  have hone : ∀ row' ∈ midRows tape, row'.market = row.market := fun row' hrow' =>
    h row' hrow' row (hrow ▸ List.mem_cons_self)
  have hgroups : grouped MakerRow.market (midRows tape) = [(row.market, midRows tape)] :=
    grouped_of_one hne hone
  have hperm : List.Perm [(row.market, midRows tape)] (grouped MakerRow.market (midRows tape)) := by
    rw [hgroups]
  rw [residuals_shift hperm (List.pairwise_singleton _ _), marketReach, residualSeries, hgroups,
    List.map_singleton, List.flatten_singleton, reachWithin_singleton]

/-- **A tape of one magnitude** has a reach of none. -/
theorem reach_of_oneMagnitude (h : OneMagnitude tape) (offset : Market → ℤ) :
    reachFromResidual ((midRows (tape.map (MakerRow.shift offset))).map
      (residual (basisOf (tape.map (MakerRow.shift offset))))) = some 0 ∧
        marketReach tape = some 0 := by
  obtain ⟨⟨market, htwo⟩, magnitude, halike⟩ := h
  have hall : ∀ x ∈ (midRows tape).map (residual (basisOf tape)), |x| = magnitude :=
    List.forall_mem_map.mpr halike
  have hperm := residuals_shift_perm tape offset
  constructor
  · refine reach_of_alike ?_ fun x hx => hall x (hperm.mem_iff.mp hx)
    rw [hperm.length_eq, List.length_map]
    exact htwo.trans (List.length_filter_le _ _)
  · refine reachWithin_of_alike magnitude ?_ fun xs hxs x hx => ?_
    · obtain ⟨row, hrow⟩ := List.exists_mem_of_length_pos (Nat.lt_of_lt_of_le Nat.zero_lt_two htwo)
      have hrow' := List.mem_filter.mp hrow
      have hkey := of_decide_eq_true (p := row.market = market) hrow'.2
      obtain ⟨⟨k, rows⟩, hgroup, hfst⟩ := List.mem_map.mp (market_mem_keys hrow'.1)
      obtain rfl : k = market := hfst.trans hkey
      refine ⟨_, List.mem_map_of_mem hgroup, ?_⟩
      rw [List.length_map, mem_grouped hgroup]
      exact htwo
    · obtain ⟨⟨k, rows⟩, hgroup, rfl⟩ := List.mem_map.mp hxs
      rw [mem_grouped hgroup] at hx
      obtain ⟨row, hrow, rfl⟩ := List.mem_map.mp hx
      exact halike row (List.mem_of_mem_filter hrow)

theorem midRows_shift_ne_nil (hne : midRows tape ≠ []) (offset : Market → ℤ) :
    midRows (tape.map (MakerRow.shift offset)) ≠ [] := by
  intro hnil
  have hlength := (midRows_shift_perm tape offset).length_eq
  rw [hnil, List.length_map, List.length_nil] at hlength
  exact hne (List.length_eq_zero_iff.mp hlength.symm)

theorem map_shift_zero (tape : List MakerRow) : tape.map (MakerRow.shift fun _ => 0) = tape := by
  have hid : (MakerRow.shift fun _ => 0) = id := by
    funext row
    simp [MakerRow.shift]
  rw [hid, List.map_id]

theorem separate_of_reach (hne : midRows tape ≠ []) (hnative : NativeTape tape)
    (h : ∀ offset, reachFromResidual ((midRows (tape.map (MakerRow.shift offset))).map
      (residual (basisOf (tape.map (MakerRow.shift offset))))) = marketReach tape) :
    Separate tape horizonsS := by
  intro report hreport
  have hok := convergence_ok horizonsS hne hnative
  obtain rfl := Option.some.inj (Except.ok.inj (hok.symm.trans hreport))
  have hreach := h fun _ => 0
  rw [map_shift_zero] at hreach
  refine ⟨hreach, fun offset => ⟨_, convergence_ok horizonsS (midRows_shift_ne_nil hne offset)
    (nativeTape_shift hnative offset), ?_⟩⟩
  exact (h offset).trans hreach.symm

/-- Two markets are two series. -/
theorem two_le_length (h : ¬ OneMarket tape) : 2 ≤ (residualSeries tape).length := by
  simp only [OneMarket, not_forall] at h
  obtain ⟨row, hrow, row', hrow', hne⟩ := h
  have hkey := market_mem_keys hrow
  have hkey' := market_mem_keys hrow'
  rw [residualSeries, List.length_map, ← List.length_map (f := Prod.fst)]
  match hkeys : (grouped MakerRow.market (midRows tape)).map Prod.fst with
  | [] => exact absurd (hkeys ▸ hkey) List.not_mem_nil
  | [k] =>
    rw [hkeys, List.mem_singleton] at hkey hkey'
    exact absurd (hkey.trans hkey'.symm) hne
  | _ :: _ :: _ =>
    rw [List.length_cons, List.length_cons]
    exact Nat.le_add_left 2 _

theorem oneMagnitude_of_series (hwithin : (residualSeries tape).flatMap steps ≠ []) {magnitude : ℤ}
    (h : ∀ x ∈ (residualSeries tape).flatten, |x| = magnitude) : OneMagnitude tape := by
  constructor
  · obtain ⟨step, hstep⟩ := List.exists_mem_of_ne_nil _ hwithin
    obtain ⟨xs, hxs, hin⟩ := List.mem_flatMap.mp hstep
    obtain ⟨⟨k, rows⟩, hgroup, rfl⟩ := List.mem_map.mp hxs
    have hlength := List.length_pos_of_mem hin
    rw [length_steps, List.length_map] at hlength
    have htwo : 2 ≤ rows.length := Nat.lt_of_sub_pos hlength
    exact ⟨k, mem_grouped hgroup ▸ htwo⟩
  · refine ⟨magnitude, fun row hrow => h _ ?_⟩
    obtain ⟨⟨k, rows⟩, hgroup, hfst⟩ := List.mem_map.mp (market_mem_keys hrow)
    refine List.mem_flatten.mpr ⟨_, List.mem_map_of_mem hgroup, List.mem_map_of_mem ?_⟩
    rw [mem_grouped hgroup]
    exact List.mem_filter.mpr ⟨hrow, decide_eq_true hfst.symm⟩

/-- **When a tape is separate**: where it is refused, or its rows with a mid are of one market, or no
residual is larger than another. Where two markets meet, the step from one to the other counts. -/
theorem separate_iff (tape : List MakerRow) (horizonsS : List ℤ) :
    Separate tape horizonsS ↔ ¬ NativeTape tape ∨ OneMarket tape ∨ OneMagnitude tape := by
  by_cases hnative : NativeTape tape
  swap
  · exact iff_of_true (fun report h => absurd h (convergence_error hnative _)) (.inl hnative)
  by_cases hne : midRows tape = []
  · refine iff_of_true (fun report h => ?_) (.inr (.inl fun row hrow => ?_))
    · rw [convergence, if_pos hne] at h
      cases h
    · exact absurd (hne ▸ hrow) List.not_mem_nil
  constructor
  · intro h
    obtain ⟨hreach, hshifted⟩ := h _ (convergence_ok horizonsS hne hnative)
    refine .inr (Classical.or_iff_not_imp_left.mpr fun hmarkets => ?_)
    have hturn : ∀ turned, IsTurn (residualSeries tape) turned →
        reachFromResidual turned.flatten = marketReach tape := by
      intro turned hturned
      obtain ⟨offset, hoffset⟩ := exists_shift hturned
      obtain ⟨report', hok, heq⟩ := hshifted offset
      have hreport := convergence_ok horizonsS (midRows_shift_ne_nil hne offset)
        (nativeTape_shift hnative offset)
      obtain rfl := Option.some.inj (Except.ok.inj (hreport.symm.trans hok))
      rw [← hoffset]
      exact heq.trans hreach
    obtain ⟨hwithin, magnitude, halike⟩ :=
      alike_of_turns residualSeries_ne_nil (two_le_length hmarkets) hturn
    exact oneMagnitude_of_series hwithin halike
  · rintro (hraises | hone | halike)
    · exact absurd hnative hraises
    · exact separate_of_reach hne hnative (reach_of_oneMarket hne hone)
    · refine separate_of_reach hne hnative fun offset => ?_
      obtain ⟨hreach, hmarket⟩ := reach_of_oneMagnitude halike offset
      rw [hreach, hmarket]

/-- A row of the home market, whose gap is none. -/
def homeRow (ts : ℤ) : MakerRow := ⟨17588245, "home", ts, 1 / 2, some (1 / 2)⟩

/-- A row of the away market, whose gap is a hundred basis points. -/
def awayRow (ts : ℤ) : MakerRow := ⟨17588245, "away", ts, 51 / 100, some (1 / 2)⟩

/-- Two markets that take turns: no residual of either ever shrinks. -/
def turningTape : List MakerRow :=
  [homeRow 0, awayRow 30, homeRow 60, awayRow 90, awayRow 120]

/-- **Two markets that take turns** are said to converge: two of the four steps are from one to the
other. -/
theorem separate_iff_turning :
    convergence turningTape [] = .ok (some ⟨100, some (1 / 2), 60, 5⟩) ∧
      marketReach turningTape = some 0 ∧ ¬ Separate turningTape [] := by
  have hreport : convergence turningTape [] = .ok (some ⟨100, some (1 / 2), 60, 5⟩) := by
    decide +kernel
  have hmarket : marketReach turningTape = some 0 := by decide +kernel
  refine ⟨hreport, hmarket, fun h => ?_⟩
  have hreach := (h _ hreport).1
  rw [hmarket] at hreach
  exact absurd hreach (by decide +kernel)

end Tape

end Veridex.Maker
