import Veridex.Lib.AsOf
import Veridex.Lib.Grouped
import Veridex.Maker.Scorer

/-!
# Scoring a maker tape (`maker/runner.py`, step 4)

The rows of the tape are grouped by fixture and venue market. In each group the rows with a mid are
quoted on, by two agents, and their quotes are scored against the group's own fair values.

* `groupRefAt_eq`: the lookup is the last fair value of the group at or before a time.
* `scoreGroup_ok`: a group is scored when no quote is made over a zero reference.
* `scoreTape_ok`: what the books of the two agents hold after the tape.
-/

namespace Veridex.Maker

open Veridex.Py Veridex.Lib

/-- A row of the maker tape, without its coordinates and hashes, which no step here reads. -/
structure MakerRow where
  fixtureId : ℤ
  venueMarketRef : String
  ts : ℤ
  fv : ℚ
  mid : Option ℚ
  deriving DecidableEq, Repr

/-- A market: a fixture and a venue market. -/
abbrev Market := ℤ × String

/-- The market of a row. -/
def MakerRow.market (row : MakerRow) : Market := (row.fixtureId, row.venueMarketRef)

/-- A row that carries a mid. -/
structure LiveRow extends MakerRow where
  price : ℚ
  carries : mid = some price

/-- `row` where `row["mid"] is not None`. -/
def MakerRow.live (row : MakerRow) : Option LiveRow :=
  match h : row.mid with
  | some price => some ⟨row, price, h⟩
  | none => none

/-- The rows to quote on, in the order of their times. -/
def liveRows (rows : List MakerRow) : List LiveRow :=
  timed (fun row => row.ts) (rows.filterMap MakerRow.live)

/-- `bisect.bisect_right`, of a list in order. -/
def bisectRight (tsList : List ℤ) (ts : ℤ) : ℕ := (tsList.takeWhile (· ≤ ts)).length

/-- `_group_fv_at`. -/
def groupFvAt (tsList : List ℤ) (fvList : List ℚ) (ts : ℤ) : Option ℚ :=
  let pos := bisectRight tsList ts
  if pos = 0 then none else fvList[pos - 1]?

/-- `_group_ref_at`. -/
def groupRefAt (tsList : List ℤ) (fvList : List ℚ) : RefAt := fun _ _ ts =>
  let pos := bisectRight tsList ts
  if pos = 0 then none else fvList[pos - 1]?

/-- The lookup over the rows of one market. -/
def refAt (rows : List MakerRow) : RefAt :=
  let allSorted := timed MakerRow.ts rows
  groupRefAt (allSorted.map MakerRow.ts) (allSorted.map MakerRow.fv)

/-- What an agent is shown of a row. -/
def LiveRow.view (row : LiveRow) : View where
  referenceFv := { fv := some row.fv }
  mid := row.price
  clock := row.ts

/-- `_score_group`. -/
def scoreGroup (agent : MarketMakerAgent) (rows : List LiveRow) (refAt : RefAt)
    (horizonsS : List ℤ) : Except MarkoutError (List QuoteMarkout × QuoteAccounting) :=
  scoreR1Markout (rows.map fun row => agent.propose row.view) refAt horizonsS

/-- What is kept of one agent: its entries of `marks_by`, `quality_by`, `scored_by` and
`abstained_by`. -/
structure Book where
  marks : List QuoteMarkout := []
  quality : List ℤ := []
  scored : ℕ := 0
  abstained : ℕ := 0
  deriving DecidableEq, Repr

/-- A group's result, kept. -/
def Book.add (book : Book) (result : List QuoteMarkout × QuoteAccounting) : Book where
  marks := book.marks ++ result.1
  quality := book.quality ++ result.1.map fun m => -max 0 (-m.markoutBps)
  scored := book.scored + result.2.scored
  abstained := book.abstained + result.2.abstained

/-- The books of the two agents. -/
structure Books where
  naive : Book := {}
  candidate : Book := {}
  deriving DecidableEq, Repr

/-- The agents of a run. -/
def naive : MarketMakerAgent := naiveMarketMakerAgent

def candidate : MarketMakerAgent := txLineFairMarketMakerAgent

/-- One group of the tape. -/
def scoreMarket (horizonsS : List ℤ) (books : Books) (rows : List MakerRow) :
    Except MarkoutError Books := do
  let live := liveRows rows
  if live.isEmpty then return books
  let naiveResult ← scoreGroup naive live (refAt rows) horizonsS
  let candidateResult ← scoreGroup candidate live (refAt rows) horizonsS
  return ⟨books.naive.add naiveResult, books.candidate.add candidateResult⟩

/-- Step 4 of `run_maker_arena`: the books after the tape. -/
def scoreTape (tape : List MakerRow) (horizonsS : List ℤ) : Except MarkoutError Books :=
  (grouped MakerRow.market tape).foldlM (fun books group => scoreMarket horizonsS books group.2) {}

/-! ## The reference of a market -/

variable {rows : List MakerRow} {row : LiveRow} {ts h : ℤ} {horizonsS : List ℤ}
  {agent : MarketMakerAgent}

theorem live_eq_some {row : MakerRow} {live : LiveRow} :
    row.live = some live ↔ live.toMakerRow = row := by
  constructor
  · intro h
    unfold MakerRow.live at h
    split at h
    · obtain rfl := Option.some.inj h
      rfl
    · exact nomatch h
  · rintro rfl
    obtain ⟨row, price, hprice⟩ := live
    unfold MakerRow.live
    split
    · next price' h =>
      obtain rfl : price' = price := Option.some.inj (h.symm.trans hprice)
      rfl
    · next h => exact nomatch h.symm.trans hprice

theorem mem_liveRows : row ∈ liveRows rows ↔ row.toMakerRow ∈ rows := by
  simp [liveRows, live_eq_some]

/-- **The lookup** is the last fair value of the market at or before a time. -/
theorem refAt_eq (rows : List MakerRow) (marketKey : String) (side : Side) (ts : ℤ) :
    refAt rows marketKey side ts = (asOf MakerRow.ts rows ts).map MakerRow.fv := by
  have htake : bisectRight ((timed MakerRow.ts rows).map MakerRow.ts) ts =
      ((timed MakerRow.ts rows).takeWhile (MakerRow.ts · ≤ ts)).length := by
    rw [bisectRight, List.takeWhile_map, List.length_map]
    rfl
  rw [asOf, ← timed_take, ← getElem?_of_prefix (List.takeWhile_prefix _)]
  simp only [refAt, groupRefAt, htake, List.getElem?_map]
  split_ifs <;> rfl

/-! ## A group -/

/-- The agent brackets an anchor of each row, at the row's time. -/
def Anchored (agent : MarketMakerAgent) (anchor : LiveRow → ℚ) : Prop :=
  ∀ row : LiveRow, (agent.propose row.view).quotes = bracket (anchor row) (1 / 50) ∧
    (agent.propose row.view).ts = row.ts

theorem naive_anchored : Anchored naive LiveRow.price :=
  fun row => naive_quotes row.view

theorem txLineFair_anchored : Anchored candidate fun row => row.fv :=
  fun row => txLineFair_quotes row.fv row.price row.ts

/-- The quotes an agent makes on a row. -/
def quotesOn (agent : MarketMakerAgent) (row : LiveRow) : List TargetQuote :=
  (agent.propose row.view).quotes

variable {anchor : LiveRow → ℚ}

/-- The references of a quote: what is known when it is made, and at its horizon. -/
theorem exists_references (hrow : row ∈ liveRows rows) (hh : 0 < h) : ∃ now later,
    asOf MakerRow.ts rows row.ts = some now ∧ asOf MakerRow.ts rows (row.ts + h) = some later := by
  have hmem := mem_liveRows.mp hrow
  obtain ⟨now, hnow⟩ := exists_asOf hmem (le_refl row.ts)
  have hlate : row.ts ≤ row.ts + h := by omega
  obtain ⟨later, hlater⟩ := exists_asOf hmem hlate
  exact ⟨now, later, hnow, hlater⟩

section Pair

variable {quote : TargetQuote} {now : MakerRow} (hagent : Anchored agent anchor)
  (hnative : ∀ r ∈ rows, Native r.fv) (hrow : row ∈ liveRows rows) (hquote : quote ∈ quotesOn agent row)
  (hh : 0 < h) (hnow : asOf MakerRow.ts rows row.ts = some now)

include hagent hnative hrow hquote hh hnow

/-- **A pair** is scored, unless the reference it starts from is zero; then it raises. -/
theorem scorePair_row :
    (∃ mark, scorePair (refAt rows) (agent.propose row.view) quote h = .ok (some mark)) ∧
        now.fv ≠ 0 ∨
      (∃ e, scorePair (refAt rows) (agent.propose row.view) quote h = .error e) ∧ now.fv = 0 := by
  obtain ⟨_, later, -, hlater⟩ := exists_references hrow hh
  have hprice : Native quote.price := by
    have hbracket := hquote
    rw [quotesOn, (hagent row).1] at hbracket
    exact price_of_mem_bracket (by norm_num) hbracket
  have href : refAt rows quote.marketKey quote.side (agent.propose row.view).ts = some now.fv := by
    rw [(hagent row).2, refAt_eq, hnow, Option.map_some]
  have href' : refAt rows quote.marketKey quote.side ((agent.propose row.view).ts + h) =
      some later.fv := by
    rw [(hagent row).2, refAt_eq, hlater, Option.map_some]
  have hdefined := forwardMarkoutBps_ok quote.side hprice
    (hnative now (mem_of_asOf hnow).1) (hnative later (mem_of_asOf hlater).1)
  by_cases hzero : now.fv = 0
  · right
    refine ⟨?_, hzero⟩
    cases hbps : forwardMarkoutBps quote.side quote.price now.fv later.fv with
    | ok bps => exact absurd hzero (hdefined.mp ⟨bps, hbps⟩)
    | error e =>
      rw [scorePair, href, href']
      exact ⟨e, by simp [hbps, bind, Except.bind]⟩
  · left
    obtain ⟨bps, hbps⟩ := hdefined.mpr hzero
    exact ⟨⟨_, scorePair_some href href' hbps⟩, hzero⟩

end Pair

/-- No quote is made on a row that starts from a zero reference. -/
def NoZeroReference (agent : MarketMakerAgent) (rows : List MakerRow) : Prop :=
  ∀ row ∈ liveRows rows, quotesOn agent row ≠ [] →
    ∀ now, asOf MakerRow.ts rows row.ts = some now → now.fv ≠ 0

/-- **A group is scored** when no quote starts from a zero reference, or there is no horizon. -/
theorem scoreGroup_ok (hagent : Anchored agent anchor) (hnative : ∀ r ∈ rows, Native r.fv)
    (hpositive : ∀ h ∈ horizonsS, 0 < h) :
    (∃ result, scoreGroup agent (liveRows rows) (refAt rows) horizonsS = .ok result) ↔
      horizonsS = [] ∨ NoZeroReference agent rows := by
  constructor
  · rintro ⟨result, hok⟩
    by_cases hempty : horizonsS = []
    · exact .inl hempty
    · right
      intro row hrow hquotes now hnow
      obtain ⟨h, hh⟩ := List.exists_mem_of_ne_nil _ hempty
      obtain ⟨quote, hquote⟩ := List.exists_mem_of_ne_nil _ hquotes
      rcases scorePair_row hagent hnative hrow hquote (hpositive h hh) hnow with
        ⟨-, hne⟩ | ⟨⟨e, herror⟩, -⟩
      · exact hne
      · exact absurd hok
          (scoreR1Markout_error (List.mem_map_of_mem hrow) hquote hh herror result)
  · intro hcondition
    have hpairs : ∀ p ∈ pairs ((liveRows rows).map fun row => agent.propose row.view) horizonsS,
        ∃ outcome, scorePair (refAt rows) p.1 p.2.1 p.2.2 = .ok outcome := by
      rintro ⟨qs, quote, h⟩ hp
      obtain ⟨hqs, hquote, hh⟩ := mem_pairs.mp hp
      obtain ⟨row, hrow, rfl⟩ := List.mem_map.mp hqs
      obtain ⟨now, -, hnow, -⟩ := exists_references hrow (hpositive h hh)
      rcases hcondition with rfl | hcondition
      · exact absurd hh List.not_mem_nil
      · rcases scorePair_row hagent hnative hrow hquote (hpositive h hh) hnow with
          ⟨⟨mark, hmark⟩, -⟩ | ⟨-, hzero⟩
        · exact ⟨some mark, hmark⟩
        · exact absurd hzero (hcondition row hrow (List.ne_nil_of_mem hquote) now hnow)
    obtain ⟨outcomes, houtcomes⟩ := exists_mapM_ok hpairs
    exact ⟨(outcomes.filterMap id, ⟨_, _⟩),
      scoreR1Markout_ok.mpr ⟨outcomes, mapM_eq_ok.mp houtcomes, rfl, rfl, rfl⟩⟩

/-! ## The tape -/

/-- The marks an agent's quotes make at one horizon, over some rows. -/
def marksOver (agent : MarketMakerAgent) (rows : List MakerRow) (h : ℤ) (live : List LiveRow) :
    List QuoteMarkout :=
  live.flatMap fun row => (quotesOn agent row).flatMap fun quote =>
    pairMarks (refAt rows) (agent.propose row.view) quote h

/-- The marks of a market, in the order they are made. -/
def marketMarks (agent : MarketMakerAgent) (horizonsS : List ℤ) (rows : List MakerRow) :
    List QuoteMarkout :=
  (liveRows rows).flatMap fun row => (quotesOn agent row).flatMap fun quote =>
    horizonsS.flatMap fun h => pairMarks (refAt rows) (agent.propose row.view) quote h

/-- The number of quotes an agent makes over some rows. -/
def quoteCount (agent : MarketMakerAgent) (live : List LiveRow) : ℕ :=
  (live.map fun row => (quotesOn agent row).length).sum

/-- What a book holds after some groups. -/
structure Book.Holds (agent : MarketMakerAgent) (horizonsS : List ℤ) (groups : List (List MakerRow))
    (book : Book) : Prop where
  marks : book.marks = groups.flatMap (marketMarks agent horizonsS)
  quality : book.quality = book.marks.map fun m => -max 0 (-m.markoutBps)
  scored : book.marks.length = book.scored
  counted : book.scored + book.abstained =
    (groups.map fun rows => quoteCount agent (liveRows rows)).sum * horizonsS.length

theorem Book.holds_empty (agent : MarketMakerAgent) (horizonsS : List ℤ) :
    Book.Holds agent horizonsS [] {} := by
  constructor <;> simp

/-- A group's result, kept. -/
theorem Book.Holds.add {groups : List (List MakerRow)} {book : Book}
    {result : List QuoteMarkout × QuoteAccounting} (hbook : book.Holds agent horizonsS groups)
    (hok : scoreGroup agent (liveRows rows) (refAt rows) horizonsS = .ok result) :
    (book.add result).Holds agent horizonsS (groups ++ [rows]) := by
  obtain ⟨marks, acc⟩ := result
  have hmarks := marks_eq hok
  obtain ⟨hcounted, hscored⟩ := accounting hok
  rw [List.flatMap_map] at hmarks
  rw [List.map_map] at hcounted
  constructor
  · simp only [Book.add, List.flatMap_append, hbook.marks, List.flatMap_singleton]
    rw [hmarks]
    rfl
  · simp [Book.add, hbook.quality]
  · simp [Book.add, hbook.scored, hscored]
  · have htotal : quoteCount agent (liveRows rows) * horizonsS.length =
        acc.scored + acc.abstained := hcounted.symm
    simp only [Book.add, List.map_append, List.sum_append, List.map_singleton, List.sum_singleton,
      add_mul, htotal, ← hbook.counted]
    omega

/-- One group: both agents are scored. -/
theorem scoreMarket_ok {books books' : Books} :
    scoreMarket horizonsS books rows = .ok books' ↔ ∃ ours theirs,
      scoreGroup naive (liveRows rows) (refAt rows) horizonsS = .ok ours ∧
      scoreGroup candidate (liveRows rows) (refAt rows) horizonsS = .ok theirs ∧
      books' = ⟨books.naive.add ours, books.candidate.add theirs⟩ := by
  by_cases hempty : liveRows rows = []
  · -- a group without a mid adds nothing to either book
    have hnothing : ∀ book : Book, book.add ([], ⟨0, 0⟩) = book := by
      intro book
      simp [Book.add]
    have hgroup : ∀ agent : MarketMakerAgent,
        scoreGroup agent [] (refAt rows) horizonsS = .ok ([], ⟨0, 0⟩) := fun _ => rfl
    simp only [scoreMarket, hempty, hgroup, List.isEmpty_nil, if_true]
    constructor
    · intro h
      obtain rfl := Except.ok.inj h
      exact ⟨_, _, rfl, rfl, by rw [hnothing, hnothing]⟩
    · rintro ⟨_, _, h, h', rfl⟩
      obtain rfl := Except.ok.inj h
      obtain rfl := Except.ok.inj h'
      rw [hnothing, hnothing]
      rfl
  · have hlive : (liveRows rows).isEmpty = false := by simpa using hempty
    simp only [scoreMarket, hlive, Bool.false_eq_true, if_false, bind_eq_ok]
    constructor
    · rintro ⟨ours, hours, theirs, htheirs, h⟩
      exact ⟨ours, theirs, hours, htheirs, (Except.ok.inj h).symm⟩
    · rintro ⟨ours, theirs, hours, htheirs, rfl⟩
      exact ⟨ours, hours, theirs, htheirs, rfl⟩

/-- The books after the groups of a tape. -/
theorem holds_of_foldlM {groups : List (Market × List MakerRow)} :
    ∀ {done : List (List MakerRow)} {books books' : Books},
    books.naive.Holds naive horizonsS done →
    books.candidate.Holds candidate horizonsS done →
    groups.foldlM (fun books group => scoreMarket horizonsS books group.2) books = .ok books' →
    books'.naive.Holds naive horizonsS (done ++ groups.map Prod.snd) ∧
      books'.candidate.Holds candidate horizonsS (done ++ groups.map Prod.snd) := by
  induction groups with
  | nil =>
    intro done books books' hnaive hcandidate h
    obtain rfl := Except.ok.inj h
    simpa using ⟨hnaive, hcandidate⟩
  | cons group groups ih =>
    intro done books books' hnaive hcandidate h
    rw [List.foldlM_cons, bind_eq_ok] at h
    obtain ⟨mid, hgroup, h⟩ := h
    obtain ⟨ours, theirs, hn, hc, rfl⟩ := scoreMarket_ok.mp hgroup
    have hrest := ih (hnaive.add hn) (hcandidate.add hc) h
    simpa using hrest

/-- **Step 4** returns when every group is scored. -/
theorem foldlM_returns {groups : List (Market × List MakerRow)} : ∀ {books : Books},
    (∃ books', groups.foldlM (fun books group => scoreMarket horizonsS books group.2) books =
      .ok books') ↔ ∀ group ∈ groups,
        (∃ result, scoreGroup naive (liveRows group.2) (refAt group.2) horizonsS = .ok result) ∧
        ∃ result, scoreGroup candidate (liveRows group.2) (refAt group.2) horizonsS =
          .ok result := by
  induction groups with
  | nil => simp [pure, Except.pure]
  | cons group groups ih =>
    intro books
    simp only [List.foldlM_cons, bind_eq_ok, List.forall_mem_cons]
    constructor
    · rintro ⟨books', mid, hgroup, h⟩
      obtain ⟨ours, theirs, hn, hc, rfl⟩ := scoreMarket_ok.mp hgroup
      exact ⟨⟨⟨ours, hn⟩, theirs, hc⟩, ih.mp ⟨books', h⟩⟩
    · rintro ⟨⟨⟨ours, hn⟩, theirs, hc⟩, hrest⟩
      have hgroup : scoreMarket horizonsS books group.2 =
          .ok ⟨books.naive.add ours, books.candidate.add theirs⟩ :=
        scoreMarket_ok.mpr ⟨ours, theirs, hn, hc, rfl⟩
      obtain ⟨books', h⟩ := ih.mpr hrest
      exact ⟨books', _, hgroup, h⟩

end Veridex.Maker
