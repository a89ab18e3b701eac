import Veridex.Py.Basic

/-!
# Same-token non-crossing (`dust_execution/noncrossing.py`, lines 1-271)

`checkNonCrossing` takes the caller's own order legs and the tick. Every leg's price is validated
(finite, on the tick, inside `[tick, 1 - tick]`) and every side spelled out before liveness is
looked at, so an invalid leg raises even when it would drop out of the union. Per token the
highest possibly-live bid is then compared with the lowest possibly-live ask.

Numbers: a price and a tick arrive as floats and are rationals once validated.

## Results

* `validateAndRoundPrice_ok`: what a validated price is.
* `checkNonCrossing_admitted_iff`: an admitted verdict means that no possibly-live bid of a token
  reaches a possibly-live ask of the same token, tolerance included.
-/

namespace Veridex.DustExecution

open Veridex.Py

/-- `_TICK_ATOL`. -/
def tickAtol : ℚ := 1 / 1000000000

theorem tickAtol_pos : 0 < tickAtol := by norm_num [tickAtol]

/-- `LegKind`. -/
inductive LegKind where
  | proposed
  | open
  | uncertainSubmit
  | uncertainCancel
  deriving DecidableEq, Repr

/-- `UncertainSubmitState` (`reconcile.py`), the tri-state of an order whose ACK was lost. -/
inductive UncertainSubmitState where
  | resolved
  | definitivelyAbsent
  | ambiguous
  deriving DecidableEq, Repr

/-- A `Side` that has passed `_side_of`. -/
inductive Side where
  | buy
  | sell
  deriving DecidableEq, Repr

/-- `OwnOrderLeg`. The side is a plain string until `sideOf` has read it. -/
structure OwnOrderLeg where
  tokenId : String
  side : String
  price : PyFloat
  kind : LegKind
  uncertainState : Option UncertainSubmitState := none
  deriving DecidableEq

/-- `TokenCrossing`. -/
structure TokenCrossing where
  tokenId : String
  highestBid : ℚ
  lowestAsk : ℚ
  deriving DecidableEq

/-- `NonCrossingVerdict`. -/
structure NonCrossingVerdict where
  admitted : Bool
  crossings : List TokenCrossing
  deriving DecidableEq

/-- `_validate_tick_size`: the tick, once it is finite and in `(0, 0.5]`. -/
def validateTickSize (tickSize : PyFloat) : Except PyExc ℚ :=
  match tickSize with
  | .fin tick =>
    if tick ≤ 0 then .error ⟨.valueError, "tick_size must be a finite positive number"⟩
    else if 1 / 2 < tick then
      .error ⟨.valueError, "tick_size must be <= 0.5 for a non-empty price band"⟩
    else .ok tick
  | _ => .error ⟨.valueError, "tick_size must be a finite positive number"⟩

/-- `_round_to_tick`. -/
def roundToTick (price tick : ℚ) : ℚ := pyRound (price / tick) * tick

/-- `_validate_and_round_price`. -/
def validateAndRoundPrice (price : PyFloat) (tick : ℚ) : Except PyExc ℚ :=
  match price with
  | .fin p =>
    let steps := p / tick
    if tickAtol < |steps - pyRound steps| then
      .error ⟨.valueError, "price is not aligned to tick_size"⟩
    else
      let rounded := roundToTick p tick
      if rounded < tick - tickAtol ∨ 1 - tick + tickAtol < rounded then
        .error ⟨.valueError, "price is outside the restable band (cannot rest at 0/1)"⟩
      else .ok rounded
  | _ => .error ⟨.valueError, "price must be a finite native probability"⟩

/-- `_leg_is_possibly_live`. -/
def legIsPossiblyLive (leg : OwnOrderLeg) : Bool :=
  leg.kind = .proposed || leg.kind = .open ||
    leg.uncertainState != some .definitivelyAbsent

/-- `_side_of`. -/
def sideOf (leg : OwnOrderLeg) : Except PyExc Side :=
  if leg.side = "BUY" then .ok .buy
  else if leg.side = "SELL" then .ok .sell
  else .error ⟨.valueError, "side must be 'BUY' or 'SELL'"⟩

/-- The two dictionaries of `check_non_crossing`. -/
structure Extremes where
  highestBid : AList fun _ : String => ℚ
  lowestAsk : AList fun _ : String => ℚ

/-- `d[token] = price` when the token has no price yet or `price` is further out. -/
def keepExtreme (further : ℚ → ℚ → Bool) (d : AList fun _ : String => ℚ) (token : String)
    (price : ℚ) : AList fun _ : String => ℚ :=
  match d.lookup token with
  | none => d.insert token price
  | some cur => if further price cur then d.insert token price else d

/-- The body of the loop over the legs. -/
def crossingStep (tick : ℚ) (worst : Extremes) (leg : OwnOrderLeg) : Except PyExc Extremes := do
  let price ← validateAndRoundPrice leg.price tick
  let side ← sideOf leg
  if !legIsPossiblyLive leg then return worst
  match side with
  | .buy =>
    return { worst with
      highestBid := keepExtreme (fun p cur => cur < p) worst.highestBid leg.tokenId price }
  | .sell =>
    return { worst with
      lowestAsk := keepExtreme (fun p cur => p < cur) worst.lowestAsk leg.tokenId price }

/-- The crossing of one token, when both its extremes exist and meet. -/
def crossingOf (worst : Extremes) (token : String) : Option TokenCrossing :=
  match worst.highestBid.lookup token, worst.lowestAsk.lookup token with
  | some hb, some la => if la ≤ hb + tickAtol then some ⟨token, hb, la⟩ else none
  | _, _ => none

/-- `check_non_crossing`. -/
def checkNonCrossing (legs : List OwnOrderLeg) (tickSize : PyFloat) :
    Except PyExc NonCrossingVerdict := do
  let tick ← validateTickSize tickSize
  let worst ← legs.foldlM (crossingStep tick) ⟨∅, ∅⟩
  let crossings := worst.highestBid.keys.filterMap (crossingOf worst)
  let ordered := crossings.mergeSort fun a b => a.tokenId ≤ b.tokenId
  return ⟨ordered.isEmpty, ordered⟩

/-! ## Validated prices -/

/-- What `_validate_and_round_price` returns is in the restable band and on the tick. -/
theorem validateAndRoundPrice_ok {price : PyFloat} {tick r : ℚ} :
    validateAndRoundPrice price tick = .ok r ↔ ∃ p : ℚ, price = .fin p ∧
      |p / tick - pyRound (p / tick)| ≤ tickAtol ∧ r = roundToTick p tick ∧
      tick - tickAtol ≤ r ∧ r ≤ 1 - tick + tickAtol := by
  cases price with
  | nan | negInf | posInf => simp [validateAndRoundPrice]
  | fin p =>
    simp only [validateAndRoundPrice, PyFloat.fin.injEq, exists_eq_left']
    by_cases hstep : tickAtol < |p / tick - pyRound (p / tick)|
    · simp [hstep, not_le.mpr hstep]
    · simp only [if_neg hstep, not_lt.mp hstep, true_and]
      by_cases hband : roundToTick p tick < tick - tickAtol ∨
          1 - tick + tickAtol < roundToTick p tick
      · simp only [if_pos hband, reduceCtorEq, false_iff]
        rintro ⟨rfl, h₁, h₂⟩
        rcases hband with h | h <;> linarith
      · simp only [if_neg hband, Except.ok.injEq]
        rw [not_or, not_lt, not_lt] at hband
        constructor
        · rintro rfl
          exact ⟨rfl, hband⟩
        · rintro ⟨rfl, -⟩
          rfl

theorem validateTickSize_ok {tickSize : PyFloat} {tick : ℚ} :
    validateTickSize tickSize = .ok tick ↔ tickSize = .fin tick ∧ 0 < tick ∧ tick ≤ 1 / 2 := by
  cases tickSize with
  | nan | negInf | posInf => simp [validateTickSize]
  | fin t =>
    simp only [validateTickSize, PyFloat.fin.injEq]
    split_ifs with h₁ h₂
    · simp only [false_iff]
      rintro ⟨rfl, h, -⟩
      linarith
    · simp only [false_iff]
      rintro ⟨rfl, -, h⟩
      linarith
    · simp only [Except.ok.injEq]
      exact ⟨fun h => ⟨h, h ▸ not_le.mp h₁, h ▸ not_lt.mp h₂⟩, fun h => h.1⟩

/-! ## The two extremes -/

/-- `d` keeps, for each token, the greatest price of `S` in the order `le`. -/
def Keeps (le : ℚ → ℚ → Prop) (S : String → ℚ → Prop) (d : AList fun _ : String => ℚ) : Prop :=
  ∀ token, match d.lookup token with
    | none => ∀ p, ¬ S token p
    | some e => S token e ∧ ∀ p, S token p → le p e

section Keeps

variable {le : ℚ → ℚ → Prop} {further : ℚ → ℚ → Bool} {S : String → ℚ → Prop}
  {d : AList fun _ : String => ℚ}

theorem keeps_keepExtreme (hfur : ∀ p cur, further p cur = true ↔ ¬ le p cur)
    (htotal : ∀ p q, le p q ∨ le q p) (htrans : ∀ p q r, le p q → le q r → le p r)
    (h : Keeps le S d) (token : String) (price : ℚ) :
    Keeps le (fun t p => S t p ∨ (t = token ∧ p = price)) (keepExtreme further d token price) := by
  have hrefl : ∀ p, le p p := fun p => (htotal p p).elim id id
  intro t
  have ht := h t
  unfold keepExtreme
  by_cases heq : t = token
  · subst heq
    cases hl : d.lookup t with
    | none =>
      rw [hl] at ht
      simp only [AList.lookup_insert]
      refine ⟨.inr (by simp), ?_⟩
      rintro p (hp | ⟨-, rfl⟩)
      · exact absurd hp (ht p)
      · exact hrefl _
    | some cur =>
      rw [hl] at ht
      by_cases hf : further price cur = true
      · simp only [hf, if_true, AList.lookup_insert]
        have hcur : le cur price := ((htotal price cur).resolve_left ((hfur _ _).mp hf))
        refine ⟨.inr (by simp), ?_⟩
        rintro p (hp | ⟨-, rfl⟩)
        · exact htrans _ _ _ (ht.2 p hp) hcur
        · exact hrefl _
      · simp only [hf, Bool.false_eq_true, if_false, hl]
        refine ⟨.inl ht.1, ?_⟩
        rintro p (hp | ⟨-, rfl⟩)
        · exact ht.2 p hp
        · exact not_not.mp fun hc => hf ((hfur _ _).mpr hc)
  · have hother : (match d.lookup token with
        | none => d.insert token price
        | some cur => if further price cur then d.insert token price else d).lookup t =
          d.lookup t := by
      split
      · exact AList.lookup_insert_ne heq
      · split
        · exact AList.lookup_insert_ne heq
        · rfl
    simp only [hother, heq, false_and, or_false]
    exact ht

theorem Keeps.congr {S' : String → ℚ → Prop} (h : Keeps le S d) (hS : ∀ t p, S t p ↔ S' t p) :
    Keeps le S' d := by
  have : S = S' := by
    funext t p
    exact propext (hS t p)
  exact this ▸ h

theorem Keeps.mem (h : Keeps le S d) {token : String} {e : ℚ} (hl : d.lookup token = some e) :
    S token e := by
  have := h token
  rw [hl] at this
  exact this.1

theorem Keeps.exists_of_mem (h : Keeps le S d) {token : String} {p : ℚ} (hp : S token p) :
    ∃ e, d.lookup token = some e ∧ le p e := by
  have ht := h token
  cases hl : d.lookup token with
  | none =>
    rw [hl] at ht
    exact absurd hp (ht p)
  | some e =>
    rw [hl] at ht
    exact ⟨e, rfl, ht.2 p hp⟩

end Keeps

/-- `p` is the rounded price of a possibly-live leg of `legs` on that side of that token. -/
def LivePrice (tick : ℚ) (legs : List OwnOrderLeg) (side : Side) (token : String) (p : ℚ) : Prop :=
  ∃ leg ∈ legs, leg.tokenId = token ∧ legIsPossiblyLive leg = true ∧ sideOf leg = .ok side ∧
    validateAndRoundPrice leg.price tick = .ok p

/-- The extremes of the legs read so far. -/
structure ExtremesOf (tick : ℚ) (legs : List OwnOrderLeg) (worst : Extremes) : Prop where
  bids : Keeps (· ≤ ·) (LivePrice tick legs .buy) worst.highestBid
  asks : Keeps (· ≥ ·) (LivePrice tick legs .sell) worst.lowestAsk

theorem livePrice_snoc_iff {tick : ℚ} {legs : List OwnOrderLeg} {leg : OwnOrderLeg} {side : Side}
    {token : String} {p : ℚ} : LivePrice tick (legs ++ [leg]) side token p ↔
      LivePrice tick legs side token p ∨ (leg.tokenId = token ∧ legIsPossiblyLive leg = true ∧
        sideOf leg = .ok side ∧ validateAndRoundPrice leg.price tick = .ok p) := by
  constructor
  · rintro ⟨l, hl, h⟩
    rcases List.mem_append.mp hl with hl | hl
    · exact .inl ⟨l, hl, h⟩
    · rw [List.mem_singleton.mp hl] at h
      exact .inr h
  · rintro (⟨l, hl, h⟩ | h)
    · exact ⟨l, List.mem_append.mpr (.inl hl), h⟩
    · exact ⟨leg, by simp, h⟩

/-- One leg. -/
theorem crossingStep_ok {tick : ℚ} {legs : List OwnOrderLeg} {leg : OwnOrderLeg}
    {worst worst' : Extremes} (hworst : ExtremesOf tick legs worst)
    (h : crossingStep tick worst leg = .ok worst') :
    (∃ p, validateAndRoundPrice leg.price tick = .ok p) ∧ (∃ s, sideOf leg = .ok s) ∧
      ExtremesOf tick (legs ++ [leg]) worst' := by
  unfold crossingStep at h
  cases hp : validateAndRoundPrice leg.price tick with
  | error e => simp [hp, bind, Except.bind] at h
  | ok p =>
    cases hs : sideOf leg with
    | error e => simp [hp, hs, bind, Except.bind] at h
    | ok s =>
      refine ⟨⟨p, rfl⟩, ⟨s, rfl⟩, ?_⟩
      simp only [hp, hs, bind, Except.bind, pure, Except.pure] at h
      have hiff : ∀ side t q, LivePrice tick (legs ++ [leg]) side t q ↔
          LivePrice tick legs side t q ∨
            (t = leg.tokenId ∧ legIsPossiblyLive leg = true ∧ s = side ∧ q = p) := by
        intro side t q
        rw [livePrice_snoc_iff, hs, hp]
        simp only [Except.ok.injEq, eq_comm]
      by_cases hlive : legIsPossiblyLive leg = true
      · simp only [hlive, Bool.not_true, Bool.false_eq_true, if_false] at h
        cases s with
        | buy =>
          obtain rfl := Except.ok.inj h
          refine ⟨?_, hworst.asks.congr fun t q => by simp [hiff]⟩
          exact (keeps_keepExtreme (by simp) le_total (fun _ _ _ => le_trans) hworst.bids
            leg.tokenId p).congr fun t q => by simp [hiff, hlive]
        | sell =>
          obtain rfl := Except.ok.inj h
          refine ⟨hworst.bids.congr fun t q => by simp [hiff], ?_⟩
          exact (keeps_keepExtreme (by simp) (fun a b => le_total b a)
            (fun _ _ _ h₁ h₂ => le_trans h₂ h₁) hworst.asks leg.tokenId p).congr fun t q => by
              simp [hiff, hlive]
      · simp only [hlive, Bool.not_false, if_true] at h
        obtain rfl := Except.ok.inj h
        exact ⟨hworst.bids.congr fun t q => by simp [hiff, hlive],
          hworst.asks.congr fun t q => by simp [hiff, hlive]⟩

/-- The loop over the legs. -/
theorem foldlM_crossingStep_ok {tick : ℚ} : ∀ {rest seen : List OwnOrderLeg}
    {worst worst' : Extremes},
    ExtremesOf tick seen worst → rest.foldlM (crossingStep tick) worst = .ok worst' →
    (∀ leg ∈ rest, (∃ p, validateAndRoundPrice leg.price tick = .ok p) ∧
      ∃ s, sideOf leg = .ok s) ∧ ExtremesOf tick (seen ++ rest) worst'
  | [], seen, worst, worst', hworst, h => by
    obtain rfl : worst = worst' := by simpa [pure, Except.pure] using h
    simpa using hworst
  | leg :: rest, seen, worst, worst', hworst, h => by
    rw [List.foldlM_cons] at h
    cases hstep : crossingStep tick worst leg with
    | error e => simp [hstep, bind, Except.bind] at h
    | ok mid =>
      rw [hstep] at h
      obtain ⟨hp, hs, hmid⟩ := crossingStep_ok hworst hstep
      obtain ⟨hrest, hfin⟩ := foldlM_crossingStep_ok hmid h
      refine ⟨?_, by simpa using hfin⟩
      intro l hl
      rcases List.mem_cons.mp hl with rfl | hl
      · exact ⟨hp, hs⟩
      · exact hrest l hl

/-! ## The verdict -/

theorem crossingOf_eq_none_iff {tick : ℚ} {legs : List OwnOrderLeg} {worst : Extremes}
    (hworst : ExtremesOf tick legs worst) :
    (∀ token ∈ worst.highestBid.keys, crossingOf worst token = none) ↔
      ∀ token b a, LivePrice tick legs .buy token b → LivePrice tick legs .sell token a →
        b + tickAtol < a := by
  constructor
  · intro h token b a hb ha
    obtain ⟨hb', hlb, hle⟩ := hworst.bids.exists_of_mem hb
    obtain ⟨la', hla, hge⟩ := hworst.asks.exists_of_mem ha
    have hnone := h token (AList.mem_keys.mp (AList.lookup_isSome.mp (by rw [hlb]; rfl)))
    simp only [crossingOf, hlb, hla, ite_eq_right_iff, reduceCtorEq, imp_false, not_le] at hnone
    linarith
  · intro h token _
    unfold crossingOf
    split
    · rename_i hb la hlb hla
      have := h token hb la (hworst.bids.mem hlb) (hworst.asks.mem hla)
      simp [not_le.mpr this]
    · rfl

/-- **An admitted verdict** on legs the check accepts: no possibly-live bid of a token reaches a
possibly-live ask of it. -/
theorem checkNonCrossing_admitted_iff {legs : List OwnOrderLeg} {tickSize : PyFloat}
    {v : NonCrossingVerdict} (h : checkNonCrossing legs tickSize = .ok v) :
    ∃ tick, validateTickSize tickSize = .ok tick ∧
      (∀ leg ∈ legs, (∃ p, validateAndRoundPrice leg.price tick = .ok p) ∧
        ∃ s, sideOf leg = .ok s) ∧
      (v.admitted = true ↔ ∀ token b a, LivePrice tick legs .buy token b →
        LivePrice tick legs .sell token a → b + tickAtol < a) := by
  unfold checkNonCrossing at h
  cases ht : validateTickSize tickSize with
  | error e => simp [ht, bind, Except.bind] at h
  | ok tick =>
    refine ⟨tick, rfl, ?_⟩
    cases hf : legs.foldlM (crossingStep tick) ⟨∅, ∅⟩ with
    | error e => simp [ht, hf, bind, Except.bind] at h
    | ok worst =>
      have hinit : ExtremesOf tick [] ⟨∅, ∅⟩ :=
        ⟨fun token => by simp [LivePrice], fun token => by simp [LivePrice]⟩
      obtain ⟨hvalid, hworst⟩ := foldlM_crossingStep_ok hinit hf
      refine ⟨hvalid, ?_⟩
      rw [List.nil_append] at hworst
      rw [← crossingOf_eq_none_iff hworst]
      simp only [ht, hf, bind, Except.bind, pure, Except.pure, Except.ok.injEq] at h
      subst h
      rw [List.isEmpty_iff, ← List.length_eq_zero_iff, List.length_mergeSort,
        List.length_eq_zero_iff, List.filterMap_eq_nil_iff]

end Veridex.DustExecution
