import Veridex.Maker.ObservedReferences
import Veridex.Maker.Trades

/-!
# Markets of a maker tape do not mix (`maker/runner.py`, steps 4 and 5)

A market's marks and trade signals are computed from its group of the tape. The group is the tape's
rows of that market, and a pair of a quote and a horizon reads it up to the horizon only.

Results: `marketMarks_perm`, `marksAt_congr`, `arena_isolated`.
-/

namespace Veridex.Maker

open Veridex.Py Veridex.Lib

/-! ## Trade signals -/

/-- What `gather_near_trade_signals` returns. -/
structure TradeSignals where
  signs : List ℚ
  contributions : List ℚ
  near : ℕ
  total : ℕ

/-- `gather_near_trade_signals`. -/
def gatherNearTradeSignals (trades : List TradePrint) (fvAt : ℤ → Option ℚ) (quotePrice : ℚ)
    (windowS : ℤ := 120) (nearBand : ℚ := 1 / 10) : TradeSignals :=
  let nearTrades := trades.filter fun t => |t.price - quotePrice| ≤ nearBand
  let resolved := nearTrades.filterMap fun t =>
    match fvAt t.ts, fvAt (t.ts + windowS) with
    | some fvNow, some fvAfter =>
      let sign : ℚ := if t.aggressorSide = .buy then 1 else -1
      some (sign, sign * (fvAfter - fvNow) * 10000)
    | _, _ => none
  ⟨resolved.map Prod.fst, resolved.map Prod.snd, nearTrades.length, trades.length⟩

/-- `sorted(xs)[len(xs) // 2]`, where there is one. -/
def upperMedian (xs : List ℚ) : Option ℚ := (xs.insertionSort (· ≤ ·))[xs.length / 2]?

/-- `_market_quote_price`, of the market's rows. -/
def marketQuotePrice (rows : List MakerRow) : ℚ :=
  match upperMedian (rows.filterMap MakerRow.mid) with
  | some mid => mid
  | none => (upperMedian (rows.map MakerRow.fv)).getD (1 / 2)

/-- The group of a market, empty where the tape has none. -/
def groupOf (tape : List MakerRow) (market : Market) : List MakerRow :=
  ((grouped MakerRow.market tape).lookup market).getD []

/-- `fv_rows_by_market.get(key, [])`, sorted in place. -/
def marketSeries (tape : List MakerRow) (market : Market) : List MakerRow :=
  timed MakerRow.ts (groupOf tape market)

/-- The signals of one market's trades. -/
def marketSignals (tape : List MakerRow) (bucket : Market × List TradeObject) : TradeSignals :=
  let series := marketSeries tape bucket.1
  gatherNearTradeSignals (bucket.2.map Prod.fst)
    (groupFvAt (series.map MakerRow.ts) (series.map MakerRow.fv)) (marketQuotePrice series)

/-- `pooled_contributions`. -/
def pooledContributions (tape : List MakerRow) (m : Matching) : List ℚ :=
  m.matchedByMarket.flatMap fun bucket => (marketSignals tape bucket).contributions

/-! ## Markets -/

variable {tape tape' : List MakerRow} {rows rows' : List MakerRow} {market : Market}
  {agent : MarketMakerAgent} {anchor : LiveRow → ℚ} {horizonsS : List ℤ} {t h : ℤ}

/-- The group of a market is its rows. -/
theorem groupOf_eq (tape : List MakerRow) (market : Market) :
    groupOf tape market = marketRows tape market :=
  lookup_grouped tape market

/-- **A market's signals** are unchanged by the rows of other markets. -/
theorem marketSignals_congr {trades : List TradeObject}
    (heq : marketRows tape market = marketRows tape' market) :
    marketSignals tape (market, trades) = marketSignals tape' (market, trades) := by
  simp only [marketSignals, marketSeries, groupOf_eq, heq]

/-- The marks step 4 makes of the quotes at one time for one horizon, in a market. -/
def marksAt (agent : MarketMakerAgent) (tape : List MakerRow) (market : Market) (t h : ℤ) :
    List QuoteMarkout :=
  marksOver agent (groupOf tape market) h ((liveRows (groupOf tape market)).filter (·.ts = t))

/-- The rows of a market up to a time. -/
def rowsUpTo (tape : List MakerRow) (market : Market) (t : ℤ) : List MakerRow :=
  (marketRows tape market).filter (·.ts ≤ t)

/-- A lookup up to a time is made from the rows up to it. -/
theorem refAt_upTo {s : ℤ} (hs : s ≤ t) (marketKey : String) (side : Side) :
    refAt (rows.filter (·.ts ≤ t)) marketKey side s = refAt rows marketKey side s := by
  rw [refAt_eq, refAt_eq, asOf_filter hs]

/-- The rows of one time, of the rows up to a later one. -/
theorem liveRows_upTo (hh : 0 < h) :
    (liveRows (rows.filter (·.ts ≤ t + h))).filter (·.ts = t) =
      (liveRows rows).filter (·.ts = t) := by
  rw [liveRows, liveRows, filter_timed, filter_timed]
  congr 1
  induction rows with
  | nil => rfl
  | cons row rows ih =>
    by_cases hrow : row.ts ≤ t + h
    · rw [List.filter_cons_of_pos (by simpa using hrow), List.filterMap_cons, List.filterMap_cons]
      cases row.live with
      | none => exact ih
      | some live =>
        simp only [List.filter_cons]
        rw [ih]
    · rw [List.filter_cons_of_neg (by simpa using hrow), ih, List.filterMap_cons]
      cases hlive : row.live with
      | none => rfl
      | some live =>
        obtain rfl := live_eq_some.mp hlive
        have hlate : ¬ live.ts = t := by omega
        simp [hlate]

/-- A pair reads the lookup when its quote is made and at its horizon. -/
theorem pairMarks_congr {refAt refAt' : RefAt} {qs : TargetQuoteSet} {quote : TargetQuote}
    (hnow : refAt quote.marketKey quote.side qs.ts = refAt' quote.marketKey quote.side qs.ts)
    (hlater : refAt quote.marketKey quote.side (qs.ts + h) =
      refAt' quote.marketKey quote.side (qs.ts + h)) :
    pairMarks refAt qs quote h = pairMarks refAt' qs quote h := by
  rw [pairMarks, pairMarks, scorePair, scorePair, hnow, hlater]

/-- **The marks made at a time for a horizon** depend on the market's rows up to the horizon. -/
theorem marksAt_congr (hagent : Anchored agent anchor) (hh : 0 < h)
    (heq : rowsUpTo tape market (t + h) = rowsUpTo tape' market (t + h)) :
    marksAt agent tape market t h = marksAt agent tape' market t h := by
  have hupTo : ∀ rows : List MakerRow,
      marksOver agent (rows.filter (·.ts ≤ t + h)) h
          ((liveRows (rows.filter (·.ts ≤ t + h))).filter (·.ts = t)) =
        marksOver agent rows h ((liveRows rows).filter (·.ts = t)) := by
    intro rows
    rw [liveRows_upTo hh]
    apply List.flatMap_congr
    intro row hrow
    obtain rfl : row.ts = t := by simpa using (List.mem_filter.mp hrow).2
    apply List.flatMap_congr
    intro quote _
    have hts := (hagent row).2
    exact pairMarks_congr (refAt_upTo (by omega) _ _) (refAt_upTo (by omega) _ _)
  rw [marksAt, marksAt, groupOf_eq, groupOf_eq, ← hupTo, ← hupTo (marketRows tape' market)]
  rw [rowsUpTo, rowsUpTo] at heq
  rw [heq]

/-- Two walks of two lists make the same elements, in another order. -/
theorem flatMap_swap {α β γ : Type*} (xs : List α) (ys : List β) (f : α → β → List γ) :
    (xs.flatMap fun x => ys.flatMap (f x)).Perm (ys.flatMap fun y => xs.flatMap fun x => f x y) := by
  induction ys with
  | nil => simp
  | cons y ys ih =>
    simp only [List.flatMap_cons]
    exact (List.flatMap_append_perm xs _ _).symm.trans (ih.append_left _)

/-- The times a market is quoted at. -/
def quoteTimes (rows : List MakerRow) : List ℤ :=
  (grouped (fun row : LiveRow => row.ts) (liveRows rows)).map Prod.fst

/-- **The marks of a market** are those made at each time for each horizon. -/
theorem marketMarks_perm (agent : MarketMakerAgent) (horizonsS : List ℤ) (rows : List MakerRow) :
    (marketMarks agent horizonsS rows).Perm (horizonsS.flatMap fun h =>
      (quoteTimes rows).flatMap fun t =>
        marksOver agent rows h ((liveRows rows).filter (·.ts = t))) := by
  have hhorizons : (marketMarks agent horizonsS rows).Perm
      (horizonsS.flatMap fun h => marksOver agent rows h (liveRows rows)) := by
    refine (List.Perm.flatMap_left _ fun row _ => flatMap_swap _ horizonsS fun quote h =>
      pairMarks (refAt rows) (agent.propose row.view) quote h).trans ?_
    exact flatMap_swap _ horizonsS fun row h => (quotesOn agent row).flatMap fun quote =>
      pairMarks (refAt rows) (agent.propose row.view) quote h
  refine hhorizons.trans (List.Perm.flatMap_left _ fun h _ => ?_)
  have hgroups : ((grouped (fun row : LiveRow => row.ts) (liveRows rows)).flatMap Prod.snd).Perm
      (liveRows rows) := grouped_perm _
  refine (hgroups.flatMap_right _).symm.trans (List.Perm.of_eq ?_)
  rw [quoteTimes, List.flatMap_map, List.flatMap_assoc]
  apply List.flatMap_congr
  rintro ⟨t, group⟩ hgroup
  rw [mem_grouped hgroup]
  rfl

/-! ## The arena -/

/-- The marks step 4 makes in a market. -/
def marksOf (agent : MarketMakerAgent) (horizonsS : List ℤ) (tape : List MakerRow)
    (market : Market) : List QuoteMarkout :=
  marketMarks agent horizonsS (groupOf tape market)

theorem flatMap_groups {β : Type*} (f : List MakerRow → List β) (tape : List MakerRow) :
    ((grouped MakerRow.market tape).map Prod.snd).flatMap f =
      ((grouped MakerRow.market tape).map Prod.fst).flatMap fun market => f (groupOf tape market) := by
  rw [List.flatMap_map, List.flatMap_map]
  apply List.flatMap_congr
  rintro ⟨market, group⟩ hgroup
  rw [mem_grouped hgroup, groupOf_eq]
  rfl

/-- The quotes made over the groups are those made over the tape. -/
theorem quoteCount_groups (agent : MarketMakerAgent) (tape : List MakerRow) :
    (((grouped MakerRow.market tape).map Prod.snd).map fun rows =>
      quoteCount agent (liveRows rows)).sum = quoteCount agent (tape.filterMap MakerRow.live) := by
  have hgroup : ∀ groups : List (List MakerRow),
      (groups.map fun rows => quoteCount agent (liveRows rows)).sum =
        quoteCount agent (groups.flatten.filterMap MakerRow.live) := by
    intro groups
    induction groups with
    | nil => rfl
    | cons rows groups ih =>
      have hlive : quoteCount agent (liveRows rows) =
          quoteCount agent (rows.filterMap MakerRow.live) := ((timed_perm _).map _).sum_eq
      rw [List.map_cons, List.sum_cons, ih, hlive, List.flatten_cons, List.filterMap_append]
      simp [quoteCount]
  have hperm : ((grouped MakerRow.market tape).map Prod.snd).flatten.Perm tape := grouped_perm tape
  rw [hgroup]
  exact ((hperm.filterMap _).map _).sum_eq

/-- What holds of an agent and its book after the tape. -/
structure Isolated (agent : MarketMakerAgent) (book : Book) (tape : List MakerRow)
    (horizonsS : List ℤ) : Prop where
  /-- Every quote and horizon is scored or abstained. -/
  counted : book.scored + book.abstained =
    quoteCount agent (tape.filterMap MakerRow.live) * horizonsS.length
  scored : book.marks.length = book.scored
  /-- The marks are those of the markets, and a market's those of its times and horizons. -/
  marks : book.marks = ((grouped MakerRow.market tape).map Prod.fst).flatMap
    (marksOf agent horizonsS tape)
  market : ∀ market, (marksOf agent horizonsS tape market).Perm (horizonsS.flatMap fun h =>
    (quoteTimes (groupOf tape market)).flatMap fun t => marksAt agent tape market t h)
  /-- The rows of other markets, and later rows, change none of them. -/
  others : ∀ market tape', marketRows tape market = marketRows tape' market →
    marksOf agent horizonsS tape market = marksOf agent horizonsS tape' market
  later : ∀ market t, ∀ h ∈ horizonsS, ∀ tape',
    rowsUpTo tape market (t + h) = rowsUpTo tape' market (t + h) →
    marksAt agent tape market t h = marksAt agent tape' market t h

theorem isolated_of_holds {book : Book} (hagent : Anchored agent anchor)
    (hpositive : ∀ h ∈ horizonsS, 0 < h)
    (hbook : book.Holds agent horizonsS ((grouped MakerRow.market tape).map Prod.snd)) :
    Isolated agent book tape horizonsS where
  counted := by rw [hbook.counted, quoteCount_groups]
  scored := hbook.scored
  marks := by rw [hbook.marks, flatMap_groups]; rfl
  market := fun market => marketMarks_perm agent horizonsS (groupOf tape market)
  others := by
    intro market tape' heq
    rw [marksOf, marksOf, groupOf_eq, groupOf_eq, heq]
  later := fun _ _ h hh _ heq => marksAt_congr hagent (hpositive h hh) heq

/-- **The arena keeps markets apart**: the tape is scored, each agent's book accounts for its quotes
market by market, and each trade is in one market's bucket or left over. -/
theorem arena_isolated (tape : List MakerRow) (horizonsS : List ℤ)
    (hfv : ∀ row ∈ tape, 0 < row.fv ∧ row.fv ≤ 1)
    (hpositive : ∀ h ∈ horizonsS, 0 < h) (fixtureIds : List ℤ)
    (records : List ResolvedMarketRecord) (trades : List TradePrint) :
    (∃ books, scoreTape tape horizonsS = .ok books ∧
      Isolated naive books.naive tape horizonsS ∧
      Isolated candidate books.candidate tape horizonsS) ∧
    (∀ bucket ∈ (matchTrades fixtureIds records trades).matchedByMarket, ∀ tape',
      marketRows tape bucket.1 = marketRows tape' bucket.1 →
      marketSignals tape bucket = marketSignals tape' bucket) ∧
    (∀ a ∈ (matchTrades fixtureIds records trades).matchedByMarket,
      ∀ b ∈ (matchTrades fixtureIds records trades).matchedByMarket,
      ∀ trade ∈ a.2, trade ∈ b.2 → a = b ∧ a.2.count trade = 1) ∧
    trades.length = (matchTrades fixtureIds records trades).rowsMatched +
      (matchTrades fixtureIds records trades).rowsUnmatched := by
  have hnative : ∀ row ∈ tape, Native row.fv := fun row h => ⟨(hfv row h).1.le, (hfv row h).2⟩
  obtain ⟨books, hbooks⟩ := (scoreTape_returns hnative hpositive).mpr (.inr (by
    intro group hgroup agent _ row hrow _ now hnow
    obtain ⟨hmem, -⟩ := group_eq hgroup (mem_of_asOf hnow).1
    exact (hfv now hmem).1.ne'))
  obtain ⟨hnaive, hcandidate⟩ := holds_of_foldlM (Book.holds_empty naive horizonsS)
    (Book.holds_empty candidate horizonsS) hbooks
  rw [List.nil_append] at hnaive hcandidate
  have haccounts := matchTrades_accounts fixtureIds records trades
  have hnodup : trades.zipIdx.Nodup := by
    apply List.Nodup.of_map Prod.snd
    rw [List.zipIdx_map_snd]
    exact List.nodup_range'
  refine ⟨⟨books, hbooks, isolated_of_holds naive_anchored hpositive hnaive,
    isolated_of_holds txLineFair_anchored hpositive hcandidate⟩,
    fun _ _ _ heq => marketSignals_congr heq, ?_, ?_⟩
  · exact fun a ha b hb trade hta htb => haccounts.bucket_unique hnodup ha hb hta htb
  · rw [← haccounts.total, List.length_zipIdx]

/-- A tape of one market, a record of it, and a trade in it. -/
theorem arena_isolated_twoTicks :
    (∃ books, scoreTape twoTicks [60] = .ok books ∧ Isolated naive books.naive twoTicks [60] ∧
      Isolated candidate books.candidate twoTicks [60]) ∧
    1 = (matchTrades [1] [⟨1, "c", "t", "1X2|home|full"⟩]
        [⟨0, 1 / 2, 1, .buy, "c", "t", by norm_num [Native]⟩]).rowsMatched +
      (matchTrades [1] [⟨1, "c", "t", "1X2|home|full"⟩]
        [⟨0, 1 / 2, 1, .buy, "c", "t", by norm_num [Native]⟩]).rowsUnmatched := by
  have harena := arena_isolated twoTicks [60] (by
      intro row hrow
      rcases List.mem_pair.mp hrow with rfl | rfl <;> norm_num)
    (by simp) [1] [⟨1, "c", "t", "1X2|home|full"⟩]
    [⟨0, 1 / 2, 1, .buy, "c", "t", by norm_num [Native]⟩]
  exact ⟨harena.1, harena.2.2.2⟩

end Veridex.Maker
