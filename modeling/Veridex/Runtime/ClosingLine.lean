import Veridex.Lib.Keyed
import Veridex.Runtime.LiveRunner

/-!
# The reconstructed close (`runtime/live_runner.py`, `ingest/txline_normalize.py`)

A close is folded from one update of each market. Both dictionaries on the way keep the last value of a
key, so that a market of the close is the one its last update before kickoff makes.

* `normalized_market`: a market of a normalized state is the last message's of its key.
* `closing_bps`: a side's value in a close is the one that market's last such update gives it.
-/

namespace Veridex.Runtime

open Veridex.Py Veridex.Lib Veridex.Law Veridex.Scoring Veridex.Ingest

variable {str : Decoded → String}

/-! ## A normalized market -/

theorem lookup_marketsOf {fields : List (String × Decoded)} {markets : List (String × Params)}
    (h : marketsOf fields = some markets) (key : String) :
    fields.lookup key = (markets.lookup key).map .obj := by
  have hfields := marketsJson_of h
  rw [marketsJson, Json.obj.injEq] at hfields
  rw [← hfields, lookup_map]

/-- The markets a state is made with are looked up as they were given. -/
theorem ofJson_markets {fixtureId tickSeq ts phase : Decoded} {markets : List (String × Decoded)}
    {state : MarketState}
    (h : MarketState.ofJson (.obj [("fixture_id", fixtureId), ("tick_seq", tickSeq), ("ts", ts),
      ("phase", phase), ("markets", .obj markets), ("scores", .obj [])]) = .ok state) (key : String) :
    (markets.lookup key).map Json.sorted = (state.markets.lookup key).map .obj := by
  rw [MarketState.ofJson] at h
  split at h
  · rename_i made hmade
    obtain rfl := Except.ok.inj h
    unfold MarketState.ofFields at hmade
    split at hmade
    · rename_i found _ hfound _
      obtain ⟨items, hitems, hfound⟩ := Option.bind_eq_some_iff.mp hfound
      obtain rfl : Json.sortedFields markets = items := Option.some.inj hitems
      have hmarkets : made.markets = found := by
        obtain ⟨_, -, hmade⟩ := Option.bind_eq_some_iff.mp hmade
        obtain ⟨_, -, hmade⟩ := Option.bind_eq_some_iff.mp hmade
        obtain ⟨_, -, hmade⟩ := Option.bind_eq_some_iff.mp hmade
        obtain ⟨_, -, hmade⟩ := Option.bind_eq_some_iff.mp hmade
        obtain rfl := Option.some.inj hmade
        rfl
      rw [hmarkets, ← lookup_marketsOf hfound, Json.lookup_sortedFields]
    · simp at hmade
  · simp at h

theorem normalized_market {messages : List Params} {tickSeq : ℤ} {state : MarketState}
    (h : marketstateFromTxlineOdds str messages tickSeq = .ok state) {key : String} {market : Params}
    (hmarket : state.markets.lookup key = some market) : ∃ message raw,
      (messages.filter fun message => marketKey str message = key).getLast? = some message ∧
        marketOf message = .ok raw ∧ market = Json.sortedFields raw := by
  obtain ⟨fixtureIds, -, h⟩ := bind_eq_ok.mp h
  cases fixtureIds with
  | nil => simp at h
  | cons fixtureId others =>
    by_cases hothers : (others.any (· ≠ fixtureId)) = true
    · simp only [hothers, if_true] at h
      exact nomatch h
    simp only [hothers] at h
    obtain ⟨stamps, -, h⟩ := bind_eq_ok.mp h
    obtain ⟨markets, hmarkets, h⟩ := bind_eq_ok.mp h
    have hfound := ofJson_markets h key
    obtain ⟨pairs, hpairs, hdict⟩ := bind_eq_ok.mp hmarkets
    obtain rfl := Except.ok.inj hdict
    rw [hmarket, Json.lookup_dictOf] at hfound
    have hmade : List.Forall₂ (fun message pair => ∃ raw, marketOf message = .ok raw ∧
        pair = (marketKey str message, (.obj raw : Decoded))) messages pairs := by
      refine (mapM_eq_ok.mp hpairs).imp ?_
      intro message pair hpair
      obtain ⟨raw, hraw, hpair⟩ := bind_eq_ok.mp hpair
      exact ⟨raw, hraw, (Except.ok.inj hpair).symm⟩
    have hkept := List.rel_filter (p := fun message => marketKey str message = key)
      (q := fun pair : String × Decoded => pair.1 = key) (by
        rintro message pair ⟨raw, -, rfl⟩
        simp) hmade
    cases hlast : (pairs.filter fun pair => pair.1 = key).getLast? with
    | none => simp [hlast] at hfound
    | some pair =>
      obtain ⟨message, hmessage, raw, hraw, rfl⟩ := getLast?_of_forall₂ hkept hlast
      refine ⟨message, raw, hmessage, hraw, ?_⟩
      rw [hlast] at hfound
      simpa [Json.sorted] using hfound.symm

/-! ## The close -/

/-- The last update of a market that is not in-running. -/
def closingUpdate (str : Decoded → String) (updates : List Params) (key : String) : Option Params :=
  (updates.filter fun update => !inRunning update && marketKey str update = key).getLast?

/-- What an update says of a side, in basis points. -/
def updateBps (update : Params) (side : Decoded) : Except PyExc Decoded := do
  let market ← marketOf update
  (table market "stable_prob_bps").item side

theorem tableOf_reads {read : PyFloat → Except PyExc Decoded}
    {outcomes : List (Decoded × Decoded)} : ∀ {table : List (String × Decoded)},
      tableOf read outcomes = .ok table → ∀ pair ∈ table, ∃ x, read x = .ok pair.2 := by
  induction outcomes with
  | nil =>
    intro table h pair hpair
    obtain rfl := Except.ok.inj h
    simp at hpair
  | cons outcome rest ih =>
    intro table h pair hpair
    obtain ⟨name, v⟩ := outcome
    obtain ⟨number, -, h⟩ := bind_eq_ok.mp h
    cases number with
    | none => exact ih h pair hpair
    | some x =>
      obtain ⟨value, hvalue, h⟩ := bind_eq_ok.mp h
      cases name with
      | str name =>
        obtain ⟨others, hothers, h⟩ := bind_eq_ok.mp h
        obtain rfl := Except.ok.inj h
        rcases List.mem_cons.mp hpair with rfl | hpair
        · exact ⟨x, hvalue⟩
        · exact ih hothers pair hpair
      | null | bool _ | int _ | float _ | arr _ | obj _ => exact nomatch h

/-- The probabilities of an update are whole. -/
theorem probBpsOf_int {outcomes : List (Decoded × Decoded)} {probBps : Params}
    (h : probBpsOf outcomes = .ok probBps) {name : String} {v : Decoded}
    (hv : probBps.lookup name = some v) : ∃ n, v = .int n := by
  obtain ⟨table, htable, h⟩ := bind_eq_ok.mp h
  obtain rfl := Except.ok.inj h
  obtain ⟨x, hx⟩ := tableOf_reads htable _ (Json.mem_dictOf (mem_of_lookup hv))
  obtain ⟨n, -, hn⟩ := bind_eq_ok.mp hx
  exact ⟨n, (Except.ok.inj hn).symm⟩

theorem lookup_lastPerMarket (updates : List Params) (key : String) :
    (lastPerMarket str updates).lookup key = (closingUpdate str updates key).map .obj := by
  have hfilter : (updates.filter fun update => !inRunning update && marketKey str update = key) =
      (updates.filter fun update => !inRunning update).filter
        fun update => marketKey str update = key := by
    rw [List.filter_filter]
    congr 1
    funext update
    rw [Bool.and_comm]
  rw [lastPerMarket, Json.lookup_dictOf, closingUpdate, hfilter, List.filter_map, List.getLast?_map,
    Option.map_map]
  rfl

/-- A close has one update of each market: the last one before the fixture went in-running. -/
theorem closing_market {updates : List Params} {allowlist : List String} {tickSeq : ℤ}
    {closing : MarketState}
    (h : reconstructClosingState str updates allowlist tickSeq = .ok (some closing)) {key : String}
    {market : Params} (hmarket : closing.markets.lookup key = some market) : ∃ update raw,
      closingUpdate str updates key = some update ∧ marketOf update = .ok raw ∧
        market = Json.sortedFields raw := by
  unfold reconstructClosingState at h
  split at h
  · simp at h
  · obtain ⟨full, hfull, h⟩ := bind_eq_ok.mp h
    obtain rfl := Option.some.inj (Except.ok.inj h)
    have hlookup : full.markets.lookup key = some market := by
      have hfiltered := @lookup_filter _ _ _ full.markets key fun key => allowed key allowlist
      rw [filterMarkets, hfiltered] at hmarket
      split_ifs at hmarket
      exact hmarket
    obtain ⟨update, raw, hupdate, hraw, hsorted⟩ := normalized_market hfull hlookup
    refine ⟨update, raw, ?_, hraw, hsorted⟩
    have hmem := List.mem_of_getLast? hupdate
    obtain ⟨hmem, hkey⟩ := List.mem_filter.mp hmem
    obtain ⟨entry, hentry, hobj⟩ := List.mem_filterMap.mp hmem
    obtain ⟨name, value⟩ := entry
    cases value with
    | obj fields =>
      obtain rfl := Option.some.inj hobj
      have hpair := Json.mem_dictOf hentry
      obtain ⟨made, -, hmade⟩ := List.mem_map.mp hpair
      simp only [Prod.mk.injEq, Json.obj.injEq] at hmade
      obtain ⟨hname, rfl⟩ := hmade
      obtain rfl : name = key := hname.symm.trans (of_decide_eq_true hkey)
      have hlast : (lastPerMarket str updates).lookup name = _ :=
        lookup_of_mem (Json.nodup_dictOf _) hentry
      rw [lookup_lastPerMarket] at hlast
      obtain ⟨last, hlast, heq⟩ := Option.map_eq_some_iff.mp hlast
      rw [Json.obj.injEq] at heq
      exact heq ▸ hlast
    | null | bool _ | int _ | float _ | str _ | arr _ => exact nomatch hobj

theorem closing_bps {updates : List Params} {allowlist : List String} {tickSeq : ℤ}
    {closing : MarketState}
    (h : reconstructClosingState str updates allowlist tickSeq = .ok (some closing)) {key : String}
    {side bps : Decoded} (hbps : probBps closing (.str key) side = .ok bps) : ∃ update n,
      closingUpdate str updates key = some update ∧ updateBps update side = .ok (.int n) ∧
        bps = .int n := by
  obtain ⟨market, hmarket, hitem⟩ := bind_eq_ok.mp hbps
  obtain ⟨probs, hprobs, hbps⟩ := bind_eq_ok.mp hitem
  obtain ⟨name, hname, hmarket⟩ := Decoded.item_obj_ok.mp hmarket
  obtain rfl := Option.some.inj (Except.ok.inj hname)
  rw [lookup_map] at hmarket
  obtain ⟨fields, hfields, rfl⟩ := Option.map_eq_some_iff.mp hmarket
  obtain ⟨update, raw, hupdate, hraw, rfl⟩ := closing_market h hfields
  obtain ⟨names, -, hmade⟩ := bind_eq_ok.mp hraw
  obtain ⟨prices, -, hmade⟩ := bind_eq_ok.mp hmade
  obtain ⟨pcts, -, hmade⟩ := bind_eq_ok.mp hmade
  obtain ⟨probBps, hprobBps, hmade⟩ := bind_eq_ok.mp hmade
  obtain ⟨price, -, hmade⟩ := bind_eq_ok.mp hmade
  obtain rfl := Except.ok.inj hmade
  obtain ⟨table, htable, hprobs⟩ := Decoded.item_obj_ok.mp hprobs
  obtain rfl := Option.some.inj (Except.ok.inj htable)
  have hsorted : probs = .obj (Json.sortedFields probBps) := by
    rw [Json.lookup_sortedFields] at hprobs
    exact (Option.some.inj hprobs).symm
  subst hsorted
  obtain ⟨sideName, hside, hvalue⟩ := Decoded.item_obj_ok.mp hbps
  rw [Json.lookup_sortedFields] at hvalue
  obtain ⟨v, hv, rfl⟩ := Option.map_eq_some_iff.mp hvalue
  obtain ⟨n, rfl⟩ := probBpsOf_int hprobBps hv
  refine ⟨update, n, hupdate, ?_, rfl⟩
  exact bind_eq_ok.mpr ⟨_, hraw, Decoded.item_obj_ok.mpr ⟨sideName, hside, hv⟩⟩

end Veridex.Runtime
