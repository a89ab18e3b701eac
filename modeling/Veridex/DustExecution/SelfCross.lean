import Veridex.DustExecution.NonCrossing

/-!
# What the verdict on the own legs is

`VerdictOf` says what `check_non_crossing` answers about some legs, by their possibly-live prices alone:
the verdict admits when no bid of a token reaches an ask of it, and the crossings are the tokens where
the greatest bid reaches the least ask. There is one such verdict (`VerdictOf.unique`), and the check
gives it for every list of legs it accepts (`checkNonCrossing_verdictOf`, `checkNonCrossing_union`).
-/

namespace Veridex.DustExecution

open Veridex.Py

variable {tick : ℚ} {tickSize : PyFloat} {legs legs' : List OwnOrderLeg} {leg : OwnOrderLeg}
  {worst : Extremes} {v v' : NonCrossingVerdict} {c : TokenCrossing}

/-- A leg with a price on the tick and in the band, and a side that is spelled out. -/
def AcceptedLeg (tick : ℚ) (leg : OwnOrderLeg) : Prop :=
  (∃ p, validateAndRoundPrice leg.price tick = .ok p) ∧ ∃ side, sideOf leg = .ok side

/-- A token whose best own bid reaches its best own ask. -/
def Crosses (tick : ℚ) (legs : List OwnOrderLeg) (c : TokenCrossing) : Prop :=
  IsGreatest {p | LivePrice tick legs .buy c.tokenId p} c.highestBid ∧
    IsLeast {p | LivePrice tick legs .sell c.tokenId p} c.lowestAsk ∧
      c.lowestAsk ≤ c.highestBid + tickAtol

/-- The verdict on some legs. -/
structure VerdictOf (tick : ℚ) (legs : List OwnOrderLeg) (v : NonCrossingVerdict) : Prop where
  /-- It admits when every possibly-live bid of a token is below every possibly-live ask of it. -/
  admitted : v.admitted = true ↔ ∀ token bid ask, LivePrice tick legs .buy token bid →
    LivePrice tick legs .sell token ask → bid + tickAtol < ask
  /-- It lists the crossing tokens, with their best bid and ask. -/
  crossings : ∀ c, c ∈ v.crossings ↔ Crosses tick legs c
  /-- It lists each once, by token. -/
  ordered : v.crossings.Pairwise fun a b => a.tokenId < b.tokenId

/-- The verdict is about the possibly-live prices alone. -/
theorem VerdictOf.congr (h : VerdictOf tick legs v)
    (hsame : ∀ side token p, LivePrice tick legs' side token p ↔ LivePrice tick legs side token p) :
    VerdictOf tick legs' v where
  admitted := by
    rw [h.admitted]
    simp only [hsame]
  crossings c := by
    rw [h.crossings, Crosses, Crosses]
    simp only [hsame]
  ordered := h.ordered

/-- There is one verdict. -/
theorem VerdictOf.unique (h : VerdictOf tick legs v) (h' : VerdictOf tick legs v') : v = v' := by
  have hadmitted : v.admitted = v'.admitted := Bool.eq_iff_iff.mpr (h.admitted.trans h'.admitted.symm)
  have hperm : v.crossings.Perm v'.crossings := by
    refine (List.perm_ext_iff_of_nodup (h.ordered.imp fun hlt heq => ?_)
      (h'.ordered.imp fun hlt heq => ?_)).mpr fun c => (h.crossings c).trans (h'.crossings c).symm
    · exact absurd (heq ▸ hlt) (lt_irrefl _)
    · exact absurd (heq ▸ hlt) (lt_irrefl _)
  have hcrossings : v.crossings = v'.crossings :=
    hperm.eq_of_pairwise (fun a b _ _ hab hba => absurd (hab.trans hba) (lt_irrefl _)) h.ordered
      h'.ordered
  obtain ⟨admitted, crossings⟩ := v
  obtain ⟨admitted', crossings'⟩ := v'
  obtain rfl : admitted = admitted' := hadmitted
  obtain rfl : crossings = crossings' := hcrossings
  rfl

/-! ## The check gives the verdict -/

variable (worst) in
/-- One leg that is accepted. -/
theorem crossingStep_accepts (h : AcceptedLeg tick leg) :
    ∃ worst', crossingStep tick worst leg = .ok worst' := by
  obtain ⟨⟨p, hp⟩, side, hside⟩ := h
  rw [crossingStep, hp, hside]
  simp only [bind, Except.bind, pure, Except.pure]
  split
  · exact ⟨_, rfl⟩
  · cases side with
    | buy => exact ⟨_, rfl⟩
    | sell => exact ⟨_, rfl⟩

variable (worst) in
/-- The loop over accepted legs. -/
theorem foldlM_crossingStep_accepts (h : ∀ leg ∈ legs, AcceptedLeg tick leg) :
    ∃ worst', legs.foldlM (crossingStep tick) worst = .ok worst' := by
  induction legs generalizing worst with
  | nil => exact ⟨worst, rfl⟩
  | cons leg rest ih =>
    obtain ⟨mid, hmid⟩ := crossingStep_accepts worst (h leg List.mem_cons_self)
    obtain ⟨worst', hrest⟩ := ih mid fun l hl => h l (List.mem_cons_of_mem leg hl)
    exact ⟨worst', by rw [List.foldlM_cons, hmid]; exact hrest⟩

/-- The crossing the two dictionaries have for a token. -/
theorem crossingOf_eq_some_iff (hworst : ExtremesOf tick legs worst) {token : String} :
    crossingOf worst token = some c ↔ c.tokenId = token ∧ Crosses tick legs c := by
  constructor
  · intro h
    rw [crossingOf] at h
    split at h
    · next hb la hhb hla =>
      split at h
      · next hcross =>
        obtain rfl := Option.some.inj h
        have hbids := hworst.bids token
        have hasks := hworst.asks token
        rw [hhb] at hbids
        rw [hla] at hasks
        exact ⟨rfl, ⟨hbids.1, fun p hp => hbids.2 p hp⟩, ⟨hasks.1, fun p hp => hasks.2 p hp⟩, hcross⟩
      · cases h
    · cases h
  · rintro ⟨rfl, hbid, hask, hcross⟩
    obtain ⟨hb, hhb, hbge⟩ := hworst.bids.exists_of_mem hbid.1
    obtain ⟨la, hla, hale⟩ := hworst.asks.exists_of_mem hask.1
    obtain rfl : hb = c.highestBid := le_antisymm (hbid.2 (hworst.bids.mem hhb)) hbge
    obtain rfl : la = c.lowestAsk := le_antisymm hale (hask.2 (hworst.asks.mem hla))
    simp only [crossingOf, hhb, hla, if_pos hcross]

/-- **The check** gives the verdict on the legs it accepts. -/
theorem checkNonCrossing_verdictOf (htick : validateTickSize tickSize = .ok tick)
    (hlegs : ∀ leg ∈ legs, AcceptedLeg tick leg) :
    ∃ v, checkNonCrossing legs tickSize = .ok v ∧ VerdictOf tick legs v := by
  obtain ⟨worst, hfold⟩ := foldlM_crossingStep_accepts ⟨∅, ∅⟩ hlegs
  have hinit : ExtremesOf tick [] ⟨∅, ∅⟩ :=
    ⟨fun token => by simp [LivePrice], fun token => by simp [LivePrice]⟩
  have hworst := (foldlM_crossingStep_ok hinit hfold).2
  rw [List.nil_append] at hworst
  have hcheck : checkNonCrossing legs tickSize = .ok
      ⟨((worst.highestBid.keys.filterMap (crossingOf worst)).mergeSort
          fun a b => a.tokenId ≤ b.tokenId).isEmpty,
        (worst.highestBid.keys.filterMap (crossingOf worst)).mergeSort
          fun a b => a.tokenId ≤ b.tokenId⟩ := by
    rw [checkNonCrossing, htick]
    simp only [bind, Except.bind, hfold, pure, Except.pure]
  have hsorted : ((worst.highestBid.keys.filterMap (crossingOf worst)).mergeSort
      fun a b => decide (a.tokenId ≤ b.tokenId)).Pairwise
        fun a b => decide (a.tokenId ≤ b.tokenId) = true := by
    refine List.pairwise_mergeSort (fun a b c hab hbc => ?_) (fun a b => ?_) _
    · exact decide_eq_true ((of_decide_eq_true hab).trans (of_decide_eq_true hbc))
    · simpa using le_total a.tokenId b.tokenId
  obtain ⟨tick', htick', -, hadmitted⟩ := checkNonCrossing_admitted_iff hcheck
  obtain rfl := Except.ok.inj (htick'.symm.trans htick)
  refine ⟨_, hcheck, ⟨hadmitted, fun c => ?_, ?_⟩⟩
  · rw [List.mem_mergeSort, List.mem_filterMap]
    constructor
    · rintro ⟨token, -, hc⟩
      exact ((crossingOf_eq_some_iff hworst).mp hc).2
    · intro hc
      obtain ⟨hb, hhb, -⟩ := hworst.bids.exists_of_mem hc.1.1
      refine ⟨c.tokenId, ?_, (crossingOf_eq_some_iff hworst).mpr ⟨rfl, hc⟩⟩
      exact AList.mem_keys.mp (AList.lookup_isSome.mp (by rw [hhb]; rfl))
  · -- the tokens of the crossings are among the keys, each of which is there once
    have htokens : ((worst.highestBid.keys.filterMap (crossingOf worst)).map
        TokenCrossing.tokenId).Nodup := by
      rw [List.map_filterMap]
      refine worst.highestBid.keys_nodup.filterMap fun token token' key hkey hkey' => ?_
      obtain ⟨c, hc, rfl⟩ := Option.map_eq_some_iff.mp hkey
      obtain ⟨c', hc', heq⟩ := Option.map_eq_some_iff.mp hkey'
      rw [← ((crossingOf_eq_some_iff hworst).mp hc).1, ← ((crossingOf_eq_some_iff hworst).mp hc').1,
        heq]
    have hnodup := (List.mergeSort_perm (worst.highestBid.keys.filterMap (crossingOf worst))
      fun a b => decide (a.tokenId ≤ b.tokenId)).map TokenCrossing.tokenId |>.nodup_iff.mpr htokens
    refine (hsorted.and (List.pairwise_map.mp hnodup)).imp fun h => ?_
    exact lt_of_le_of_ne (of_decide_eq_true h.1) h.2

/-! ## Order, a leg more, a leg absent, an uncertain leg -/

theorem livePrice_of_perm (h : legs'.Perm legs) (side : Side) (token : String) (p : ℚ) :
    LivePrice tick legs' side token p ↔ LivePrice tick legs side token p := by
  constructor
  · rintro ⟨leg, hleg, h'⟩
    exact ⟨leg, h.mem_iff.mp hleg, h'⟩
  · rintro ⟨leg, hleg, h'⟩
    exact ⟨leg, h.mem_iff.mpr hleg, h'⟩

/-- A leg that is not possibly live has no part in the prices. -/
theorem livePrice_cons_of_absent (h : legIsPossiblyLive leg = false) (side : Side) (token : String)
    (p : ℚ) : LivePrice tick (leg :: legs) side token p ↔ LivePrice tick legs side token p := by
  constructor
  · rintro ⟨l, hl, htoken, hlive, hrest⟩
    rcases List.mem_cons.mp hl with rfl | hl
    · rw [h] at hlive
      exact nomatch hlive
    · exact ⟨l, hl, htoken, hlive, hrest⟩
  · rintro ⟨l, hl, hrest⟩
    exact ⟨l, List.mem_cons_of_mem leg hl, hrest⟩

/-- A possibly-live leg has the same part in the prices as an open one. -/
theorem livePrice_cons_open (h : legIsPossiblyLive leg = true) (side : Side) (token : String) (p : ℚ) :
    LivePrice tick ({ leg with kind := .open, uncertainState := none } :: legs) side token p ↔
      LivePrice tick (leg :: legs) side token p := by
  constructor
  · rintro ⟨l, hl, htoken, hlive, hside, hprice⟩
    rcases List.mem_cons.mp hl with rfl | hl
    · exact ⟨leg, List.mem_cons_self, htoken, h, hside, hprice⟩
    · exact ⟨l, List.mem_cons_of_mem leg hl, htoken, hlive, hside, hprice⟩
  · rintro ⟨l, hl, htoken, hlive, hside, hprice⟩
    rcases List.mem_cons.mp hl with rfl | hl
    · exact ⟨_, List.mem_cons_self, htoken, rfl, hside, hprice⟩
    · exact ⟨l, List.mem_cons_of_mem _ hl, htoken, hlive, hside, hprice⟩

/-- The check on other legs with the same possibly-live prices. -/
theorem checkNonCrossing_congr (htick : validateTickSize tickSize = .ok tick)
    (hlegs : ∀ leg ∈ legs, AcceptedLeg tick leg) (hlegs' : ∀ leg ∈ legs', AcceptedLeg tick leg)
    (hsame : ∀ side token p, LivePrice tick legs' side token p ↔ LivePrice tick legs side token p) :
    checkNonCrossing legs' tickSize = checkNonCrossing legs tickSize := by
  obtain ⟨v, hv, hverdict⟩ := checkNonCrossing_verdictOf htick hlegs
  obtain ⟨v', hv', hverdict'⟩ := checkNonCrossing_verdictOf htick hlegs'
  rw [hv, hv', hverdict'.unique (hverdict.congr hsame)]

/-- A price on the tick and in the band is accepted as it is. -/
theorem validateAndRoundPrice_onTick (htick : 0 < tick) {k : ℤ} (hlow : tick ≤ k * tick)
    (hhigh : k * tick ≤ 1 - tick) : validateAndRoundPrice (.fin (k * tick)) tick = .ok (k * tick) := by
  have hsteps : (k : ℚ) * tick / tick = k := mul_div_cancel_right₀ _ htick.ne'
  have hpos := tickAtol_pos
  refine validateAndRoundPrice_ok.mpr ⟨k * tick, rfl, ?_, ?_, by linarith, by linarith⟩
  · rw [hsteps, pyRound_intCast, sub_self, abs_zero]
    exact hpos.le
  · rw [roundToTick, hsteps, pyRound_intCast]

/-- **The verdict on the possibly-live union** of the legs the check accepts: it admits when no bid of a
token reaches an ask of it, its crossings are the crossing tokens with their best bid and ask, it does
not depend on the order, a leg more does not make it admit, a leg proven absent has no part in it, and
an uncertain leg that is not proven absent counts like an open one. A price on the tick and in the band
is compared as it is. -/
theorem checkNonCrossing_union (htick : validateTickSize tickSize = .ok tick)
    (hlegs : ∀ leg ∈ legs, AcceptedLeg tick leg) :
    (∃ v, checkNonCrossing legs tickSize = .ok v ∧ VerdictOf tick legs v ∧
      ∀ leg legs' v', legs'.Perm (leg :: legs) → checkNonCrossing legs' tickSize = .ok v' →
        v.admitted = false → v'.admitted = false) ∧
      (∀ legs', legs'.Perm legs → checkNonCrossing legs' tickSize = checkNonCrossing legs tickSize) ∧
      (∀ leg rest, legs.Perm (leg :: rest) →
        (leg.kind = .uncertainSubmit ∨ leg.kind = .uncertainCancel) →
          if leg.uncertainState = some .definitivelyAbsent then
            checkNonCrossing rest tickSize = checkNonCrossing legs tickSize
          else
            checkNonCrossing ({ leg with kind := .open, uncertainState := none } :: rest) tickSize =
              checkNonCrossing legs tickSize) ∧
      ∀ k : ℤ, tick ≤ k * tick → k * tick ≤ 1 - tick →
        validateAndRoundPrice (.fin (k * tick)) tick = .ok (k * tick) := by
  obtain ⟨v, hv, hverdict⟩ := checkNonCrossing_verdictOf htick hlegs
  refine ⟨⟨v, hv, hverdict, ?_⟩, ?_, ?_, ?_⟩
  · intro leg legs' v' hperm hv' hreject
    obtain ⟨tick', htick', -, hadmitted'⟩ := checkNonCrossing_admitted_iff hv'
    obtain rfl := Except.ok.inj (htick'.symm.trans htick)
    refine Bool.eq_false_iff.mpr fun hadmit => Bool.eq_false_iff.mp hreject (hverdict.admitted.mpr ?_)
    -- every pair of the legs is a pair of the larger list
    rintro token bid ask ⟨l, hl, hbid⟩ ⟨m, hm, hask⟩
    exact hadmitted'.mp hadmit token bid ask
      ⟨l, hperm.mem_iff.mpr (List.mem_cons_of_mem leg hl), hbid⟩
      ⟨m, hperm.mem_iff.mpr (List.mem_cons_of_mem leg hm), hask⟩
  · intro legs' hperm
    exact checkNonCrossing_congr htick hlegs (fun leg hleg => hlegs leg (hperm.mem_iff.mp hleg))
      (livePrice_of_perm hperm)
  · intro leg rest hperm hkind
    have hleg : AcceptedLeg tick leg := hlegs leg (hperm.mem_iff.mpr List.mem_cons_self)
    have hrest : ∀ l ∈ rest, AcceptedLeg tick l := fun l hl =>
      hlegs l (hperm.mem_iff.mpr (List.mem_cons_of_mem leg hl))
    have hlive : legIsPossiblyLive leg = (leg.uncertainState != some .definitivelyAbsent) := by
      rw [legIsPossiblyLive]
      rcases hkind with hkind | hkind
      · rw [hkind]
        rfl
      · rw [hkind]
        rfl
    split
    · next habsent =>
      rw [habsent] at hlive
      refine checkNonCrossing_congr htick hlegs hrest fun side token p => ?_
      rw [livePrice_of_perm hperm, livePrice_cons_of_absent hlive]
    · next hnot =>
      have hpossibly : legIsPossiblyLive leg = true := hlive.trans (bne_iff_ne.mpr hnot)
      refine checkNonCrossing_congr htick hlegs (fun l hl => ?_) fun side token p => ?_
      · rcases List.mem_cons.mp hl with rfl | hl
        · exact hleg
        · exact hrest l hl
      · rw [livePrice_of_perm hperm, livePrice_cons_open hpossibly]
  · intro k hlow hhigh
    exact validateAndRoundPrice_onTick (validateTickSize_ok.mp htick).2.1 hlow hhigh

/-- A resting bid, an ask that may have been canceled, and a bid whose submit was lost. -/
def restingLegs : List OwnOrderLeg := [
  ⟨"yes", "BUY", .fin (1 / 2), .open, none⟩,
  ⟨"yes", "SELL", .fin (1 / 2), .uncertainCancel, none⟩,
  ⟨"no", "BUY", .fin (1 / 4), .uncertainSubmit, some .definitivelyAbsent⟩]

/-- The ask crosses the bid, and the verdict on these legs says so. -/
theorem checkNonCrossing_union_resting :
    ∃ v, checkNonCrossing restingLegs (.fin (1 / 4)) = .ok v ∧ VerdictOf (1 / 4) restingLegs v := by
  have htick : validateTickSize (.fin (1 / 4)) = .ok (1 / 4) :=
    validateTickSize_ok.mpr ⟨rfl, by norm_num, by norm_num⟩
  have hquarter : validateAndRoundPrice (.fin (1 / 4)) (1 / 4) = .ok (1 / 4) := by decide +kernel
  have hhalf : validateAndRoundPrice (.fin (1 / 2)) (1 / 4) = .ok (1 / 2) := by decide +kernel
  have hlegs : ∀ leg ∈ restingLegs, AcceptedLeg (1 / 4) leg := by
    intro leg hleg
    simp only [restingLegs, List.mem_cons, List.not_mem_nil, or_false] at hleg
    rcases hleg with rfl | rfl | rfl
    · exact ⟨⟨_, hhalf⟩, .buy, rfl⟩
    · exact ⟨⟨_, hhalf⟩, .sell, rfl⟩
    · exact ⟨⟨_, hquarter⟩, .buy, rfl⟩
  obtain ⟨⟨v, hv, hverdict, -⟩, -⟩ := checkNonCrossing_union htick hlegs
  exact ⟨v, hv, hverdict⟩

end Veridex.DustExecution
