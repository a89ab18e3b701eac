import Veridex.Lib.Grouped
import Veridex.Maker.Scorer

/-!
# Joining trades to markets (`maker/trades.py`, `maker/diagnostic.py`, `maker/runner.py`, step 5)

Trades are joined to the markets of one fixture after another, by their condition and token. A trade
that was joined is taken out of the pool by its identity, which is here its position in the list.

Results: `matchTrades_perm` (every trade is in one bucket or left over), `nodup_matchTrades` (no two
buckets share a market).
-/

namespace Veridex.Maker

open Veridex.Py Veridex.Lib

/-- `ResolvedMarketRecord`, without what no join reads. -/
structure ResolvedMarketRecord where
  fixtureId : ℤ
  conditionId : String
  tokenId : String
  marketRef : String
  deriving DecidableEq, Repr

/-- `AggressorSide`. -/
inductive AggressorSide where
  | buy
  | sell
  deriving DecidableEq, Repr

/-- `TradePrint`. -/
structure TradePrint where
  ts : ℤ
  price : ℚ
  size : ℚ
  aggressorSide : AggressorSide
  conditionId : String
  tokenId : String
  native : Native price
  deriving DecidableEq

/-- A trade object: `id(trade)` is its position. -/
abbrev TradeObject := TradePrint × ℕ

/-- `index.get((trade.condition_id, trade.token_id))`: the last record of the pair. -/
def joinIndex (records : List ResolvedMarketRecord) (fixtureId : ℤ) (trade : TradePrint) :
    Option String :=
  ((records.filter (·.fixtureId = fixtureId)).reverse.find? fun record =>
    record.conditionId = trade.conditionId ∧ record.tokenId = trade.tokenId).map
      ResolvedMarketRecord.marketRef

/-- One trade of the join. -/
def joinStep (records : List ResolvedMarketRecord) (fixtureId : ℤ)
    (joined : List (String × List TradeObject) × ℕ) (trade : TradeObject) :
    List (String × List TradeObject) × ℕ :=
  match joinIndex records fixtureId trade.1 with
  | none => (joined.1, joined.2 + 1)
  | some marketRef => (file marketRef trade joined.1, joined.2)

/-- `join_trades_to_fixture_with_accounting`. -/
def joinTradesToFixture (trades : List TradeObject) (records : List ResolvedMarketRecord)
    (fixtureId : ℤ) : List (String × List TradeObject) × ℕ :=
  trades.foldl (joinStep records fixtureId) ([], 0)

/-- The pool and the buckets of the join over all fixtures. -/
structure Matching where
  remaining : List TradeObject
  matchedByMarket : List ((ℤ × String) × List TradeObject) := []

/-- `matched_by_market.setdefault(market, []).extend(group)`, of a group that is not empty. -/
def fileAll (market : ℤ × String) (group : List TradeObject)
    (buckets : List ((ℤ × String) × List TradeObject)) :
    List ((ℤ × String) × List TradeObject) :=
  group.foldl (fun buckets trade => file market trade buckets) buckets

/-- One fixture of the join. -/
def matchFixture (records : List ResolvedMarketRecord) (m : Matching) (fixtureId : ℤ) : Matching :=
  let joined := (joinTradesToFixture m.remaining records fixtureId).1
  let matchedIds := (joined.flatMap Prod.snd).map Prod.snd
  { remaining := m.remaining.filter fun trade => trade.2 ∉ matchedIds
    matchedByMarket := joined.foldl
      (fun buckets group => fileAll (fixtureId, group.1) group.2 buckets) m.matchedByMarket }

/-- The join of `_build_trade_aware_diagnostic`. -/
def matchTrades (fixtureIds : List ℤ) (records : List ResolvedMarketRecord)
    (trades : List TradePrint) : Matching :=
  fixtureIds.foldl (matchFixture records) { remaining := trades.zipIdx }

/-- `rows_matched`. -/
def Matching.rowsMatched (m : Matching) : ℕ := (m.matchedByMarket.map fun b => b.2.length).sum

/-- `rows_unmatched`. -/
def Matching.rowsUnmatched (m : Matching) : ℕ := m.remaining.length

/-! ## What a join does -/

variable {records : List ResolvedMarketRecord} {fixtureId : ℤ} {trades : List TradeObject}

/-- The trades a fixture takes. -/
def taken (records : List ResolvedMarketRecord) (fixtureId : ℤ) (trade : TradeObject) : Bool :=
  (joinIndex records fixtureId trade.1).isSome

/-- **The join of one fixture** holds the trades it takes, and counts the others. -/
theorem joinTrades_spec (records : List ResolvedMarketRecord) (fixtureId : ℤ)
    (trades : List TradeObject) :
    ((joinTradesToFixture trades records fixtureId).1.flatMap Prod.snd).Perm
        (trades.filter (taken records fixtureId)) ∧
      (joinTradesToFixture trades records fixtureId).2 =
        trades.countP (!taken records fixtureId ·) := by
  induction trades using List.reverseRecOn with
  | nil => exact ⟨.refl _, rfl⟩
  | append_singleton trades trade ih =>
    obtain ⟨hperm, hcount⟩ := ih
    have hstep : joinTradesToFixture (trades ++ [trade]) records fixtureId =
        joinStep records fixtureId (joinTradesToFixture trades records fixtureId) trade := by
      simp [joinTradesToFixture]
    rw [hstep, joinStep, List.filter_append, List.countP_append]
    cases hindex : joinIndex records fixtureId trade.1 with
    | none =>
      have htaken : taken records fixtureId trade = false := by rw [taken, hindex]; rfl
      simpa [htaken, hcount] using hperm
    | some marketRef =>
      have htaken : taken records fixtureId trade = true := by rw [taken, hindex]; rfl
      refine ⟨?_, by simpa [htaken] using hcount⟩
      have hlast := (file_perm marketRef trade _).trans (hperm.cons trade)
      rw [List.filter_cons_of_pos htaken]
      exact hlast.trans (List.perm_append_singleton _ _).symm

theorem fileAll_perm (market : ℤ × String) (group : List TradeObject) :
    ∀ buckets : List ((ℤ × String) × List TradeObject),
    ((fileAll market group buckets).flatMap Prod.snd).Perm
      (buckets.flatMap Prod.snd ++ group) := by
  induction group with
  | nil => intro buckets; simp [fileAll]
  | cons trade group ih =>
    intro buckets
    have hrest := ih (file market trade buckets)
    refine hrest.trans (((file_perm market trade buckets).append_right group).trans ?_)
    exact List.perm_middle.symm

theorem fileGroups_perm (fixtureId : ℤ) (groups : List (String × List TradeObject)) :
    ∀ buckets : List ((ℤ × String) × List TradeObject),
    ((groups.foldl (fun buckets group => fileAll (fixtureId, group.1) group.2 buckets)
        buckets).flatMap Prod.snd).Perm (buckets.flatMap Prod.snd ++ groups.flatMap Prod.snd) := by
  induction groups with
  | nil => intro buckets; simp
  | cons group groups ih =>
    intro buckets
    rw [List.foldl_cons, List.flatMap_cons, ← List.append_assoc]
    exact (ih _).trans ((fileAll_perm _ _ buckets).append_right _)

/-- Filing keeps the markets apart. -/
theorem nodup_file {κ α : Type*} [DecidableEq κ] {groups : List (κ × List α)}
    (h : (groups.map Prod.fst).Nodup) (k : κ) (a : α) :
    ((file k a groups).map Prod.fst).Nodup := by
  rw [map_fst_file]
  by_cases hmem : k ∈ groups.map Prod.fst
  · rwa [if_pos hmem]
  · rw [if_neg hmem]
    exact h.append (List.nodup_singleton _) (by simpa using hmem)

theorem nodup_fileAll {market : ℤ × String} {group : List TradeObject} :
    ∀ {buckets : List ((ℤ × String) × List TradeObject)}, (buckets.map Prod.fst).Nodup →
    ((fileAll market group buckets).map Prod.fst).Nodup := by
  induction group with
  | nil => exact fun h => h
  | cons trade group ih => exact fun h => ih (nodup_file h market trade)

theorem nodup_fileGroups {fixtureId : ℤ} {groups : List (String × List TradeObject)} :
    ∀ {buckets : List ((ℤ × String) × List TradeObject)}, (buckets.map Prod.fst).Nodup →
    ((groups.foldl (fun buckets group => fileAll (fixtureId, group.1) group.2 buckets)
        buckets).map Prod.fst).Nodup := by
  induction groups with
  | nil => exact fun h => h
  | cons group groups ih => exact fun h => ih (nodup_fileAll h)

/-- In a pool of distinct trades, those left are those not taken. -/
theorem remaining_eq (hnodup : (trades.map Prod.snd).Nodup) :
    (matchFixture records ⟨trades, buckets⟩ fixtureId).remaining =
      trades.filter (!taken records fixtureId ·) := by
  obtain ⟨hperm, -⟩ := joinTrades_spec records fixtureId trades
  apply List.filter_congr
  intro trade htrade
  have hids : trade.2 ∈ ((joinTradesToFixture trades records fixtureId).1.flatMap Prod.snd).map
      Prod.snd ↔ ∃ other ∈ trades, taken records fixtureId other = true ∧ other.2 = trade.2 := by
    rw [(hperm.map Prod.snd).mem_iff, List.mem_map]
    simp only [List.mem_filter, and_assoc]
  cases htaken : taken records fixtureId trade with
  | true => exact decide_eq_false (not_not.mpr (hids.mpr ⟨trade, htrade, htaken, rfl⟩))
  | false =>
    apply decide_eq_true
    rw [hids]
    rintro ⟨other, hother, hotherTaken, hid⟩
    obtain rfl := List.inj_on_of_nodup_map hnodup hother htrade hid
    rw [htaken] at hotherTaken
    exact nomatch hotherTaken

/-- What the pool and the buckets hold of some trades: every one of them once, and no two buckets
share a market. -/
structure Matching.Accounts (m : Matching) (trades : List TradeObject) : Prop where
  every : (m.matchedByMarket.flatMap Prod.snd ++ m.remaining).Perm trades
  markets : (m.matchedByMarket.map Prod.fst).Nodup

/-- One fixture moves trades from the pool to the buckets. -/
theorem Matching.Accounts.matchFixture {m : Matching} (hnodup : (trades.map Prod.snd).Nodup)
    (h : m.Accounts trades) (fixtureId : ℤ) :
    (matchFixture records m fixtureId).Accounts trades := by
  obtain ⟨remaining, buckets⟩ := m
  have hpool : (remaining.map Prod.snd).Nodup := by
    have hall := (h.every.map Prod.snd).nodup_iff.mpr hnodup
    rw [List.map_append] at hall
    exact hall.of_append_right
  constructor
  · rw [remaining_eq hpool]
    have hjoined := (joinTrades_spec records fixtureId remaining).1
    have hsplit : (remaining.filter (taken records fixtureId) ++
        remaining.filter (!taken records fixtureId ·)).Perm remaining :=
      List.filter_append_perm _ _
    have hbuckets := fileGroups_perm fixtureId
      (joinTradesToFixture remaining records fixtureId).1 buckets
    refine List.Perm.trans ?_ h.every
    refine (hbuckets.append_right _).trans ?_
    rw [List.append_assoc]
    exact ((hjoined.append_right _).trans hsplit).append_left _
  · exact nodup_fileGroups h.markets

/-- **Every trade is in one bucket or left over**, and no two buckets share a market. -/
theorem matchTrades_accounts (fixtureIds : List ℤ) (records : List ResolvedMarketRecord)
    (trades : List TradePrint) :
    (matchTrades fixtureIds records trades).Accounts trades.zipIdx := by
  have hnodup : (trades.zipIdx.map Prod.snd).Nodup := by
    rw [List.zipIdx_map_snd]
    exact List.nodup_range'
  have hstart : Matching.Accounts { remaining := trades.zipIdx } trades.zipIdx :=
    ⟨.refl _, List.nodup_nil⟩
  have hfold : ∀ (fixtureIds : List ℤ) {m : Matching}, m.Accounts trades.zipIdx →
      (fixtureIds.foldl (matchFixture records) m).Accounts trades.zipIdx := by
    intro fixtureIds
    induction fixtureIds with
    | nil => exact fun h => h
    | cons fixtureId fixtureIds ih => exact fun h => ih (h.matchFixture hnodup fixtureId)
  exact hfold fixtureIds hstart

/-- The totals add up. -/
theorem Matching.Accounts.total {m : Matching} {trades : List TradeObject}
    (h : m.Accounts trades) : trades.length = m.rowsMatched + m.rowsUnmatched := by
  rw [← h.every.length_eq, List.length_append, List.length_flatMap]
  rfl

/-- A trade is in at most one bucket, and once. -/
theorem Matching.Accounts.bucket_unique {m : Matching} {trades : List TradeObject}
    (h : m.Accounts trades) (hnodup : trades.Nodup) {a b : (ℤ × String) × List TradeObject}
    (ha : a ∈ m.matchedByMarket) (hb : b ∈ m.matchedByMarket) {trade : TradeObject}
    (hta : trade ∈ a.2) (htb : trade ∈ b.2) : a = b ∧ a.2.count trade = 1 := by
  have hall : (m.matchedByMarket.flatMap Prod.snd).Nodup :=
    (h.every.nodup_iff.mpr hnodup).of_append_left
  obtain ⟨hinside, hacross⟩ := List.nodup_flatMap.mp hall
  constructor
  · by_contra hne
    have hsymm : Std.Symm (Function.onFun List.Disjoint
        (Prod.snd : (ℤ × String) × List TradeObject → _)) := ⟨fun _ _ h => h.symm⟩
    exact hacross.forall ha hb hne hta htb
  · exact List.count_eq_one_of_mem (hinside a ha) hta

end Veridex.Maker
