import Veridex.Lib.AsOf
import Veridex.Venues.Polymarket

/-!
# A quote is the cost to fill

The walk stops once what remains is within the cut-off, so what is filled is within the cut-off of the
least of the size asked for and the depth. At the size filled, the native price is the mean of the least
cost, and it does not fall when more is asked for.

The order of the raw levels decides nothing where no two of them share a price (`quoteMarket_costToFill`).
Between two that do, the sort leaves their order open, and the cut-off can fall between them
(`quote_of_swapped_asks`).
-/

namespace Veridex.Venues

open Veridex.Py Veridex.Lib Veridex.Lib.Ladder

variable {ladder levels levels' : List (ℚ × ℚ)} {parsed parsed' : List (PyFloat × PyFloat)}
  {asks asks' : List Value} {remaining remaining' notional filled forSize larger : ℚ}

/-! ## The levels of the asks -/

/-- The valid levels of the raw asks. -/
def Asked (asks : List Value) (levels : List (ℚ × ℚ)) : Prop :=
  ∃ parsed, parseLevels (.list asks) = .ok parsed ∧ exactLevels parsed = some levels

/-- A level with its numbers as floats. -/
def floatLevel (level : ℚ × ℚ) : PyFloat × PyFloat := (.fin level.1, .fin level.2)

theorem floatLevel_injective : Function.Injective floatLevel := by
  rintro ⟨p, s⟩ ⟨p', s'⟩ h
  obtain ⟨hp, hs⟩ := Prod.mk.inj h
  exact Prod.ext (PyFloat.fin.inj hp) (PyFloat.fin.inj hs)

theorem exactLevels_eq : exactLevels parsed = some levels ↔ parsed = levels.map floatLevel := by
  induction parsed generalizing levels with
  | nil =>
    rw [exactLevels, List.mapM_nil]
    cases levels <;> simp
  | cons level parsed ih =>
    rw [exactLevels, List.mapM_cons]
    rw [exactLevels] at ih
    obtain ⟨price, size⟩ := level
    cases price <;> cases size <;> cases levels <;>
      simp [Option.bind_eq_some_iff, ih, floatLevel, Prod.ext_iff, and_comm]

theorem parseLevels_list : parseLevels (.list asks) = .ok parsed ↔
    ∃ options, asks.mapM parseLevel = .ok options ∧ options.reduceOption = parsed := by
  cases asks with
  | nil =>
    constructor
    · intro h
      exact ⟨[], rfl, Except.ok.inj h⟩
    · rintro ⟨options, hoptions, rfl⟩
      obtain rfl := Except.ok.inj hoptions
      rfl
  | cons ask asks =>
    have hraws : parseLevels (.list (ask :: asks)) =
        (ask :: asks).mapM parseLevel >>= fun options => .ok options.reduceOption := rfl
    rw [hraws, bind_eq_ok]
    simp only [Except.ok.injEq]

theorem parseLevel_pos {raw : Value} {price size : PyFloat}
    (h : parseLevel raw = .ok (some (price, size))) :
    (PyFloat.fin 0).lt price = true ∧ (PyFloat.fin 0).lt size = true := by
  obtain ⟨price', -, hprice⟩ := bind_eq_ok.mp h
  cases price' with
  | none => exact nomatch hprice
  | some price' =>
    obtain ⟨size', -, hsize⟩ := bind_eq_ok.mp hprice
    cases size' with
    | none => exact nomatch hsize
    | some size' =>
      have hvalid := Except.ok.inj hsize
      split at hvalid
      · next hpos =>
        obtain ⟨rfl, rfl⟩ := Prod.mk.inj (Option.some.inj hvalid)
        exact Bool.and_eq_true_iff.mp hpos
      · exact nomatch hvalid

/-- **A valid level** has a price and a size above zero. -/
theorem Asked.pos (h : Asked asks levels) {level : ℚ × ℚ} (hlevel : level ∈ levels) :
    0 < level.1 ∧ 0 < level.2 := by
  obtain ⟨parsed, hparsed, hexact⟩ := h
  obtain rfl := exactLevels_eq.mp hexact
  obtain ⟨options, hoptions, hreduce⟩ := parseLevels_list.mp hparsed
  have hmem : some (floatLevel level) ∈ options := by
    rw [← List.reduceOption_mem_iff, hreduce]
    exact List.mem_map_of_mem hlevel
  obtain ⟨raw, -, hraw⟩ := exists_of_mem_mapM hoptions hmem
  obtain ⟨hprice, hsize⟩ := parseLevel_pos hraw
  exact ⟨of_decide_eq_true hprice, of_decide_eq_true hsize⟩

/-- In another order, the asks have the same levels. -/
theorem Asked.perm (h : Asked asks levels) (hperm : asks'.Perm asks) :
    ∃ levels', Asked asks' levels' ∧ levels'.Perm levels := by
  obtain ⟨parsed, hparsed, hexact⟩ := h
  obtain rfl := exactLevels_eq.mp hexact
  obtain ⟨options, hoptions, hreduce⟩ := parseLevels_list.mp hparsed
  obtain ⟨options', hoptions', hsame⟩ := exists_mapM_of_perm hperm hoptions
  have hlevels : options'.reduceOption.Perm (levels.map floatLevel) :=
    hreduce ▸ hsame.filterMap id
  obtain ⟨levels', hlevels'⟩ : ∃ levels' : List (ℚ × ℚ), levels'.map floatLevel = options'.reduceOption := by
    have hrange : options'.reduceOption ∈ Set.range (List.map floatLevel) := by
      rw [Set.range_list_map]
      intro level hlevel
      obtain ⟨level', -, rfl⟩ := List.mem_map.mp (hlevels.mem_iff.mp hlevel)
      exact ⟨level', rfl⟩
    exact hrange
  refine ⟨levels', ⟨options'.reduceOption, ?_, exactLevels_eq.mpr hlevels'.symm⟩, ?_⟩
  · exact parseLevels_list.mpr ⟨options', hoptions', rfl⟩
  · exact (List.map_perm_map_iff floatLevel_injective).mp (hlevels'.symm ▸ hlevels)

/-! ## The walk -/

/-- What the walk fills, from what remains on. -/
def walked : ℚ → List (ℚ × ℚ) → ℚ
  | _, [] => 0
  | remaining, (_, size) :: rest =>
    let take := min size remaining
    if remaining - take ≤ fillTolerance then take else take + walked (remaining - take) rest

theorem fillTolerance_pos : 0 < fillTolerance := by
  norm_num [fillTolerance]

/-- Where the walk goes on, the level was taken whole. -/
theorem whole_of_more {size : ℚ} (h : ¬ remaining - min size remaining ≤ fillTolerance) :
    size ≤ remaining := by
  by_contra hlt
  rw [min_eq_right (not_le.mp hlt).le, sub_self] at h
  exact h fillTolerance_pos.le

theorem walked_nonneg (hsized : Sized ladder) (h : 0 ≤ remaining) : 0 ≤ walked remaining ladder := by
  induction ladder generalizing remaining with
  | nil => exact le_rfl
  | cons level rest ih =>
    obtain ⟨p, s⟩ := level
    obtain ⟨hs, hrest⟩ := List.forall_mem_cons.mp hsized
    have htake : 0 ≤ min s remaining := le_min hs h
    simp only [walked]
    split
    · exact htake
    · exact add_nonneg htake (ih hrest (sub_nonneg.mpr (min_le_right s remaining)))

/-- **The walk fills** what is asked for or all there is, up to the cut-off. -/
theorem walked_bounds (hsized : Sized ladder) (h : 0 ≤ remaining) :
    min remaining (depth ladder) - fillTolerance ≤ walked remaining ladder ∧
      walked remaining ladder ≤ min remaining (depth ladder) := by
  induction ladder generalizing remaining with
  | nil =>
    have hdepth : min remaining (depth []) = 0 := min_eq_right h
    rw [hdepth, walked, zero_sub]
    exact ⟨neg_nonpos.mpr fillTolerance_pos.le, le_rfl⟩
  | cons level rest ih =>
    obtain ⟨p, s⟩ := level
    obtain ⟨hs, hrest⟩ := List.forall_mem_cons.mp hsized
    have hdepth := depth_nonneg hrest
    have hmin := min_le_left remaining (s + depth rest)
    rw [depth_cons]
    simp only [walked]
    split
    · next hstop =>
      refine ⟨by linarith, le_min (min_le_right _ _) ?_⟩
      exact (min_le_left _ _).trans (le_add_of_nonneg_right hdepth)
    · next hmore =>
      have htake : min s remaining = s := min_eq_left (whole_of_more hmore)
      rw [htake] at hmore ⊢
      obtain ⟨hlow, hhigh⟩ := ih hrest (by linarith [fillTolerance_pos] : 0 ≤ remaining - s)
      have hsplit : min remaining (s + depth rest) = s + min (remaining - s) (depth rest) := by
        rw [← min_add_add_left, add_sub_cancel]
      rw [hsplit]
      exact ⟨by linarith, by linarith⟩

theorem walked_pos (hpos : ∀ level ∈ ladder, 0 < level.2) (hne : ladder ≠ []) (h : 0 < remaining) :
    0 < walked remaining ladder := by
  obtain ⟨⟨p, s⟩, rest, rfl⟩ := List.exists_cons_of_ne_nil hne
  obtain ⟨hs, hrest⟩ := List.forall_mem_cons.mp hpos
  have htake : 0 < min s remaining := lt_min hs h
  simp only [walked]
  split
  · exact htake
  · exact add_pos_of_pos_of_nonneg htake
      (walked_nonneg (fun level hlevel => (hrest level hlevel).le)
        (sub_nonneg.mpr (min_le_right s remaining)))

/-- **Asking for more** fills no less. -/
theorem walked_mono (hsized : Sized ladder) (h : 0 ≤ remaining) (hle : remaining ≤ remaining') :
    walked remaining ladder ≤ walked remaining' ladder := by
  induction ladder generalizing remaining remaining' with
  | nil => exact le_rfl
  | cons level rest ih =>
    obtain ⟨p, s⟩ := level
    obtain ⟨hs, hrest⟩ := List.forall_mem_cons.mp hsized
    have htake : min s remaining ≤ min s remaining' := min_le_min_left s hle
    have hrest' : 0 ≤ walked (remaining' - min s remaining') rest :=
      walked_nonneg hrest (sub_nonneg.mpr (min_le_right s remaining'))
    simp only [walked]
    by_cases hstop : remaining - min s remaining ≤ fillTolerance
    · rw [if_pos hstop]
      split
      · exact htake
      · linarith
    · rw [if_neg hstop]
      have hs' := whole_of_more hstop
      rw [min_eq_left hs'] at hstop ⊢
      rw [min_eq_left (hs'.trans hle), if_neg (by linarith)]
      have := ih hrest (sub_nonneg.mpr hs') (sub_le_sub_right hle s)
      linarith

/-- **The walk** pays what the size it fills costs. -/
theorem fillFrom_eq (hsized : Sized ladder) (h : 0 ≤ remaining) :
    fillFrom remaining notional filled ladder =
      (notional + cost ladder (walked remaining ladder), filled + walked remaining ladder) := by
  induction ladder generalizing remaining notional filled with
  | nil => simp only [fillFrom, cost, walked, add_zero]
  | cons level rest ih =>
    obtain ⟨p, s⟩ := level
    obtain ⟨hs, hrest⟩ := List.forall_mem_cons.mp hsized
    have htake : (if s < remaining then s else remaining) = min s remaining := by
      rcases lt_or_ge s remaining with hlt | hge
      · rw [if_pos hlt, min_eq_left hlt.le]
      · rw [if_neg (not_lt.mpr hge), min_eq_right hge]
    simp only [fillFrom, walked, cost, htake]
    by_cases hstop : remaining - min s remaining ≤ fillTolerance
    · have hall : min s (min s remaining) = min s remaining := min_eq_right (min_le_left _ _)
      simp only [if_pos hstop, hall, sub_self, cost_zero hrest, add_zero]
    · have hs' : s ≤ remaining := by
        by_contra hlt
        rw [min_eq_right (not_le.mp hlt).le, sub_self] at hstop
        exact hstop fillTolerance_pos.le
      simp only [if_neg hstop]
      rw [ih hrest (sub_nonneg.mpr (min_le_right s remaining)), min_eq_left hs']
      have hfull : min s (s + walked (remaining - s) rest) = s :=
        min_eq_left (le_add_of_nonneg_right (walked_nonneg hrest (sub_nonneg.mpr hs')))
      rw [hfull, add_sub_cancel_left, add_assoc, add_assoc]

/-! ## A ladder with levels -/

/-- Valid levels, at least one, in the order of their prices. -/
structure ValidLadder (ladder : List (ℚ × ℚ)) : Prop where
  nonempty : ladder ≠ []
  pos : ∀ level ∈ ladder, 0 < level.1 ∧ 0 < level.2
  priced : Priced ladder

/-- The mean price of what the walk fills. -/
def meanPrice (ladder : List (ℚ × ℚ)) (forSize : ℚ) : ℚ :=
  cost ladder (walked forSize ladder) / walked forSize ladder

namespace ValidLadder

theorem sized (h : ValidLadder ladder) : Sized ladder := fun level hlevel => (h.pos level hlevel).2.le

theorem walked_pos (h : ValidLadder ladder) (hsize : 0 < forSize) : 0 < walked forSize ladder :=
  Venues.walked_pos (fun level hlevel => (h.pos level hlevel).2) h.nonempty hsize

theorem walked_le (h : ValidLadder ladder) (hsize : 0 < forSize) :
    walked forSize ladder ≤ depth ladder :=
  (walked_bounds h.sized hsize.le).2.trans (min_le_right _ _)

theorem meanPrice_pos (h : ValidLadder ladder) (hsize : 0 < forSize) : 0 < meanPrice ladder forSize := by
  have hfilled := h.walked_pos hsize
  refine div_pos ?_ hfilled
  obtain ⟨first, rest, rfl⟩ := List.exists_cons_of_ne_nil h.nonempty
  have hfirst : ∀ level ∈ first :: rest, first.1 ≤ level.1 :=
    List.forall_mem_cons.mpr ⟨le_rfl, (List.pairwise_cons.mp h.priced).1⟩
  have hslope := cost_slope h.sized hfirst le_rfl hfilled.le (h.walked_le hsize)
  rw [cost_zero h.sized, sub_zero, sub_zero] at hslope
  exact (mul_pos (h.pos first List.mem_cons_self).1 hfilled).trans_le hslope

/-- **Asking for more** costs no less a share. -/
theorem meanPrice_mono (h : ValidLadder ladder) (hsize : 0 < forSize) (hlarger : forSize ≤ larger) :
    meanPrice ladder forSize ≤ meanPrice ladder larger := by
  have hlarge := hsize.trans_le hlarger
  have hmean := mean_mono h.sized h.priced (h.walked_pos hsize).le
    (walked_mono h.sized hsize.le hlarger) (h.walked_le hlarge)
  rw [meanPrice, meanPrice, div_le_div_iff₀ (h.walked_pos hsize) (h.walked_pos hlarge)]
  linarith

theorem fillToSize_eq (h : ValidLadder ladder) (hsize : 0 < forSize) :
    fillToSize ladder forSize = some (meanPrice ladder forSize, walked forSize ladder) := by
  have hwalk : fillFrom forSize 0 0 ladder = (cost ladder (walked forSize ladder),
      walked forSize ladder) := by
    rw [fillFrom_eq h.sized hsize.le, zero_add, zero_add]
  rw [fillToSize, if_neg (not_or.mpr ⟨h.nonempty, not_le.mpr hsize⟩), hwalk]
  exact if_neg (not_le.mpr (h.walked_pos hsize))

end ValidLadder

/-! ## The quote -/

/-- A quote is the cost to fill a size from some levels. -/
structure CostToFill (levels : List (ℚ × ℚ)) (forSize : ℚ) (quote : Quote) : Prop where
  none_valid : levels = [] → quote.price = .fin 0 ∧ quote.size = .fin 0
  filled : levels ≠ [] → ∃ native size : ℚ,
    quote.nativePrice = some (.fin native) ∧ quote.price = .fin (1 / native) ∧
      quote.size = .fin size ∧ 0 < native ∧
        min forSize (depth levels) - fillTolerance ≤ size ∧ size ≤ min forSize (depth levels) ∧
          IsLeast {c | ∃ takes, Way levels takes ∧ taken takes = size ∧ spent takes = c}
            (native * size)

theorem depth_perm (h : levels'.Perm levels) : depth levels' = depth levels :=
  (h.map Prod.snd).sum_eq

theorem way_perm (h : levels'.Perm levels) {takes : List ((ℚ × ℚ) × ℚ)} :
    Way levels' takes ↔ Way levels takes :=
  ⟨fun hway => hway.perm h, fun hway => hway.perm h.symm⟩

variable {lob : List (ℚ × ℚ) → List (ℚ × ℚ)} {marketRef : String} {ts : ℤ} {quote quote' : Quote}

/-- The cost to fill is of the levels in any order. -/
theorem CostToFill.perm (h : CostToFill levels' forSize quote) (hperm : levels'.Perm levels) :
    CostToFill levels forSize quote := by
  obtain ⟨hempty, hfilled⟩ := h
  constructor
  · rintro rfl
    exact hempty hperm.eq_nil
  · intro hne
    have hne' : levels' ≠ [] := fun hnil => hne (List.nil_perm.mp (hnil ▸ hperm))
    simpa only [depth_perm hperm, way_perm hperm] using hfilled hne'

/-- The quote of valid levels: the mean price of what the walk fills, and its size. -/
theorem quoteMarket_eq (h : ValidLadder (lob levels)) (hne : levels ≠ []) (hsize : 0 < forSize) :
    quoteMarket lob marketRef forSize ts levels = .ok {
      marketRef := marketRef
      price := .fin (1 / meanPrice (lob levels) forSize)
      nativePrice := some (.fin (meanPrice (lob levels) forSize))
      size := .fin (walked forSize (lob levels))
      forSize := some (.fin forSize)
      ts := ts } := by
  have hladder : sortedAskLadder lob levels = lob levels := if_neg hne
  rw [quoteMarket, hladder, h.fillToSize_eq hsize]
  dsimp only
  rw [nativeToDecimal, if_neg (not_le.mpr (h.meanPrice_pos hsize))]
  rfl

/-- What a vendored book is assumed to do: it returns the levels by ascending price. -/
def SortsByPrice (lob : List (ℚ × ℚ) → List (ℚ × ℚ)) : Prop :=
  ∀ levels, (lob levels).Perm levels ∧ Priced (lob levels)

theorem SortsByPrice.validLadder (h : SortsByPrice lob)
    (hpos : ∀ level ∈ levels, 0 < level.1 ∧ 0 < level.2) (hne : levels ≠ []) :
    ValidLadder (lob levels) := by
  obtain ⟨hperm, hpriced⟩ := h levels
  exact ⟨fun hnil => hne (List.nil_perm.mp (hnil ▸ hperm)),
    fun level hlevel => hpos level (hperm.mem_iff.mp hlevel), hpriced⟩

/-- **One order of the levels** by price, where no two of them share one. -/
theorem SortsByPrice.eq_of_nodup (h : SortsByPrice lob) (hperm : levels'.Perm levels)
    (hnodup : (levels.map Prod.fst).Nodup) : lob levels' = lob levels := by
  have hsame : (lob levels').Perm (lob levels) := (h levels').1.trans (hperm.trans (h levels).1.symm)
  refine hsame.eq_of_pairwise ?_ (h levels').2 (h levels).2
  intro a b ha hb hab hba
  have ha' : a ∈ levels := hperm.mem_iff.mp ((h levels').1.mem_iff.mp ha)
  have hb' : b ∈ levels := (h levels).1.mem_iff.mp hb
  exact List.inj_on_of_nodup_map hnodup ha' hb' (le_antisymm hab hba)

variable (marketRef ts) in
/-- **The quote of valid levels** is their cost to fill. -/
theorem exists_costToFill (hlob : SortsByPrice lob)
    (hpos : ∀ level ∈ levels, 0 < level.1 ∧ 0 < level.2) (hsize : 0 < forSize) :
    ∃ quote, quoteMarket lob marketRef forSize ts levels = .ok quote ∧
      CostToFill levels forSize quote := by
  by_cases hne : levels = []
  · subst hne
    exact ⟨_, rfl, ⟨fun _ => ⟨rfl, rfl⟩, fun h => absurd rfl h⟩⟩
  · have hvalid := hlob.validLadder hpos hne
    have hperm := (hlob levels).1
    refine ⟨_, quoteMarket_eq hvalid hne hsize, ⟨fun h => absurd h hne, fun _ => ?_⟩⟩
    have hfilled := hvalid.walked_pos hsize
    obtain ⟨hlow, hhigh⟩ := walked_bounds hvalid.sized hsize.le
    rw [depth_perm hperm] at hlow hhigh
    have hleast := isLeast_cost hvalid.sized hvalid.priced hfilled.le (hvalid.walked_le hsize)
    simp only [way_perm hperm] at hleast
    refine ⟨_, _, rfl, rfl, rfl, hvalid.meanPrice_pos hsize, hlow, hhigh, ?_⟩
    rwa [meanPrice, div_mul_cancel₀ _ hfilled.ne']

theorem native_mono (hlob : SortsByPrice lob) (hpos : ∀ level ∈ levels, 0 < level.1 ∧ 0 < level.2)
    (hsize : 0 < forSize) (hlarger : forSize ≤ larger) {native native' : ℚ}
    (hquote : quoteMarket lob marketRef forSize ts levels = .ok quote)
    (hquote' : quoteMarket lob marketRef larger ts levels = .ok quote')
    (hnative : quote.nativePrice = some (.fin native))
    (hnative' : quote'.nativePrice = some (.fin native')) : native ≤ native' := by
  by_cases hne : levels = []
  · subst hne
    obtain rfl := Except.ok.inj hquote
    exact nomatch hnative
  · have hvalid := hlob.validLadder hpos hne
    rw [quoteMarket_eq hvalid hne hsize] at hquote
    rw [quoteMarket_eq hvalid hne (hsize.trans_le hlarger)] at hquote'
    obtain rfl := Except.ok.inj hquote
    obtain rfl := Except.ok.inj hquote'
    obtain rfl := PyFloat.fin.inj (Option.some.inj hnative)
    obtain rfl := PyFloat.fin.inj (Option.some.inj hnative')
    exact hvalid.meanPrice_mono hsize hlarger

/-- **A quote is the cost to fill** its size: for every list of raw asks, its size is what is asked for
or the whole depth, up to the cut-off, at the least cost of that size; its native price does not fall
when more is asked for. In another order the same asks are quoted so too, and where no two valid levels
share a price the quote is the same. -/
theorem quoteMarket_costToFill (hlob : SortsByPrice lob) (hasked : Asked asks levels)
    (hsize : fillTolerance < forSize) :
    ∃ quote, quoteMarket lob marketRef forSize ts levels = .ok quote ∧
      CostToFill levels forSize quote ∧
        (∀ larger quote' native native', forSize ≤ larger →
          quoteMarket lob marketRef larger ts levels = .ok quote' →
            quote.nativePrice = some (.fin native) → quote'.nativePrice = some (.fin native') →
              native ≤ native') ∧
          ∀ asks' : List Value, asks'.Perm asks → ∃ levels', Asked asks' levels' ∧
            ∃ quote', quoteMarket lob marketRef forSize ts levels' = .ok quote' ∧
              CostToFill levels forSize quote' ∧
                ((levels.map Prod.fst).Nodup → quote' = quote) := by
  have hpositive : 0 < forSize := fillTolerance_pos.trans hsize
  have hpos : ∀ level ∈ levels, 0 < level.1 ∧ 0 < level.2 := fun level hlevel => hasked.pos hlevel
  obtain ⟨quote, hquote, hcost⟩ := exists_costToFill marketRef ts hlob hpos
    hpositive
  refine ⟨quote, hquote, hcost, ?_, ?_⟩
  · intro larger quote' native native' hlarger hquote' hnative hnative'
    exact native_mono hlob hpos hpositive hlarger hquote hquote' hnative hnative'
  · intro asks' hperm
    obtain ⟨levels', hasked', hsame⟩ := hasked.perm hperm
    obtain ⟨quote', hquote', hcost'⟩ := exists_costToFill marketRef ts hlob
      (fun level hlevel => hasked'.pos hlevel) hpositive
    refine ⟨levels', hasked', quote', hquote', hcost'.perm hsame, fun hnodup => ?_⟩
    have hladder : sortedAskLadder lob levels' = sortedAskLadder lob levels := by
      by_cases hne : levels = []
      · subst hne
        rw [hsame.eq_nil]
      · have hne' : levels' ≠ [] := fun hnil => hne (List.nil_perm.mp (hnil ▸ hsame))
        rw [sortedAskLadder, sortedAskLadder, if_neg hne, if_neg hne',
          hlob.eq_of_nodup hsame hnodup]
    rw [quoteMarket, hladder, ← quoteMarket] at hquote'
    exact Except.ok.inj (hquote'.symm.trans hquote)

/-- A book that sorts as the vendored one does a few levels: those of one price stay as they came. -/
theorem timed_sortsByPrice : SortsByPrice (timed Prod.fst) := fun levels =>
  ⟨timed_perm levels, List.pairwise_insertionSort _ levels⟩

/-- An ask given as a dictionary. -/
def dictAsk : Value := .dict [("price", .str "0.5"), ("size", .int 10)]

/-- An ask given as a pair. -/
def pairAsk : Value := .list [.float (.fin (2 / 5)), .float (.fin (1 / 2))]

theorem asked_dictAsk : Asked [dictAsk, .str "?", pairAsk] [(1 / 2, 10), (2 / 5, 1 / 2)] :=
  ⟨[(.fin (1 / 2), .fin 10), (.fin (2 / 5), .fin (1 / 2))], by decide +kernel, by decide +kernel⟩

/-- The quote of these asks, for one share. -/
theorem quoteMarket_costToFill_pair : ∃ quote,
    quoteMarket (timed Prod.fst) "m" 1 0 [(1 / 2, 10), (2 / 5, 1 / 2)] = .ok quote ∧
      CostToFill [(1 / 2, 10), (2 / 5, 1 / 2)] 1 quote := by
  have hsize : fillTolerance < 1 := by norm_num [fillTolerance]
  obtain ⟨quote, hquote, hcost, -⟩ := quoteMarket_costToFill timed_sortsByPrice asked_dictAsk hsize
  exact ⟨quote, hquote, hcost⟩

/-- An ask at one half that leaves less than the cut-off of one share. -/
def shortAsk : Value := .list [.float (.fin (1 / 2)), .float (.fin (1 - 1 / (2 * 10 ^ 12)))]

/-- An ask at one half of ten shares. -/
def deepAsk : Value := .list [.float (.fin (1 / 2)), .float (.fin 10)]

/-- The quote of one share at one half, of a size. -/
def halfQuote (size : ℚ) : Quote where
  marketRef := "m"
  price := .fin 2
  nativePrice := some (.fin (1 / 2))
  size := .fin size
  forSize := some (.fin 1)
  ts := 0

/-- **Two asks of one price**: one share is filled whole or not, as they come. -/
theorem quote_of_swapped_asks : SortsByPrice (timed Prod.fst) ∧
    ∃ levels levels' quote quote',
      Asked [shortAsk, deepAsk] levels ∧ Asked [deepAsk, shortAsk] levels' ∧
        quoteMarket (timed Prod.fst) "m" 1 0 levels = .ok quote ∧
          quoteMarket (timed Prod.fst) "m" 1 0 levels' = .ok quote' ∧ quote ≠ quote' := by
  refine ⟨timed_sortsByPrice,
    [(1 / 2, 1 - 1 / (2 * 10 ^ 12)), (1 / 2, 10)], [(1 / 2, 10), (1 / 2, 1 - 1 / (2 * 10 ^ 12))],
    halfQuote (1 - 1 / (2 * 10 ^ 12)), halfQuote 1, ?_, ?_, ?_, ?_, ?_⟩
  · exact ⟨[(.fin (1 / 2), .fin (1 - 1 / (2 * 10 ^ 12))), (.fin (1 / 2), .fin 10)],
      by decide +kernel, by decide +kernel⟩
  · exact ⟨[(.fin (1 / 2), .fin 10), (.fin (1 / 2), .fin (1 - 1 / (2 * 10 ^ 12)))],
      by decide +kernel, by decide +kernel⟩
  all_goals decide +kernel

end Veridex.Venues
