import Veridex.Lib.Fallible
import Veridex.Maker.Agents

/-!
# Forward markouts (`maker/markout.py`, `maker/scorer.py`)

A quote and a horizon are a pair; a pair is scored by how the reference moves against the quoted
price, or abstained where a reference is missing.

Results: `forwardMarkoutBps_ok` (when a markout is defined), `scoreR1Markout_ok` (every pair is
scored or abstained, and the marks are those of the scored ones), `scoreR1Markout_error` (a pair
that raises ends the scoring).
-/

namespace Veridex.Maker

open Veridex.Py Veridex.Lib

/-- `MarkoutError`: `{name} not in [0,1]: {x}`, or `ref_now is zero; markout undefined`. -/
inductive MarkoutError where
  | notNativeProb (name : String) (x : ℚ)
  | refNowZero
  deriving DecidableEq, Repr

/-- `assert_native_prob`. -/
def assertNativeProb (x : ℚ) (name : String) : Except MarkoutError ℚ :=
  if 0 ≤ x ∧ x ≤ 1 then .ok x else .error (.notNativeProb name x)

/-- `forward_markout_bps`. -/
def forwardMarkoutBps (side : Side) (quotePrice refNow refFuture : ℚ) : Except MarkoutError ℤ := do
  let quotePrice ← assertNativeProb quotePrice "quote_price"
  let refNow ← assertNativeProb refNow "ref_now"
  let refFuture ← assertNativeProb refFuture "ref_future"
  if refNow = 0 then throw .refNowZero
  let sign : ℚ := if side = .bid then 1 else -1
  return pyRound (sign * (refFuture - quotePrice) / refNow * 10000)

/-- `QuoteMarkout`. -/
structure QuoteMarkout where
  fixtureId : ℤ
  tickSeq : ℤ
  side : Side
  marketKey : String
  horizonS : ℤ
  markoutBps : ℤ
  deriving DecidableEq, Repr

/-- `QuoteAccounting`, without the exclusions no pass here makes. -/
structure QuoteAccounting where
  scored : ℕ
  abstained : ℕ
  deriving DecidableEq, Repr

/-- A reference lookup. -/
abbrev RefAt := String → Side → ℤ → Option ℚ

/-- One pair: its markout, or nothing where a reference is missing. -/
def scorePair (refAt : RefAt) (qs : TargetQuoteSet) (quote : TargetQuote) (h : ℤ) :
    Except MarkoutError (Option QuoteMarkout) := do
  match refAt quote.marketKey quote.side qs.ts, refAt quote.marketKey quote.side (qs.ts + h) with
  | some refNow, some refFuture =>
    let markoutBps ← forwardMarkoutBps quote.side quote.price refNow refFuture
    return some ⟨qs.fixtureId, qs.tickSeq, quote.side, quote.marketKey, h, markoutBps⟩
  | _, _ => return none

/-- The pairs, as the three loops walk them. -/
def pairs (quoteSets : List TargetQuoteSet) (horizonsS : List ℤ) :
    List (TargetQuoteSet × TargetQuote × ℤ) :=
  quoteSets.flatMap fun qs => qs.quotes.flatMap fun quote => horizonsS.map fun h => (qs, quote, h)

/-- `score_r1_markout`. -/
def scoreR1Markout (quoteSets : List TargetQuoteSet) (refAt : RefAt) (horizonsS : List ℤ) :
    Except MarkoutError (List QuoteMarkout × QuoteAccounting) := do
  let outcomes ← (pairs quoteSets horizonsS).mapM fun p => scorePair refAt p.1 p.2.1 p.2.2
  return (outcomes.filterMap id, ⟨outcomes.countP Option.isSome, outcomes.countP Option.isNone⟩)

/-! ## What is scored -/

/-- A native probability. -/
def Native (x : ℚ) : Prop := 0 ≤ x ∧ x ≤ 1

instance (x : ℚ) : Decidable (Native x) := inferInstanceAs (Decidable (_ ∧ _))

/-- **A markout** of native probabilities is defined unless the current reference is zero. -/
theorem forwardMarkoutBps_ok (side : Side) {quotePrice refNow refFuture : ℚ}
    (hquote : Native quotePrice) (hnow : Native refNow) (hfuture : Native refFuture) :
    (∃ bps, forwardMarkoutBps side quotePrice refNow refFuture = .ok bps) ↔ refNow ≠ 0 := by
  have hnative : ∀ {x : ℚ} (name : String), Native x → assertNativeProb x name = .ok x :=
    fun _ hx => if_pos hx
  simp only [forwardMarkoutBps, hnative _ hquote, hnative _ hnow, hnative _ hfuture]
  by_cases hzero : refNow = 0
  · simp [hzero, bind, Except.bind, throw, throwThe, MonadExceptOf.throw]
  · simp [hzero, bind, Except.bind, pure, Except.pure]

variable {refAt refAt' : RefAt} {qs : TargetQuoteSet} {quote : TargetQuote} {h : ℤ}
  {quoteSets : List TargetQuoteSet} {horizonsS : List ℤ}

theorem mem_pairs : (qs, quote, h) ∈ pairs quoteSets horizonsS ↔
    qs ∈ quoteSets ∧ quote ∈ qs.quotes ∧ h ∈ horizonsS := by
  simp [pairs]

theorem length_pairs (quoteSets : List TargetQuoteSet) (horizonsS : List ℤ) :
    (pairs quoteSets horizonsS).length =
      (quoteSets.map fun qs => qs.quotes.length).sum * horizonsS.length := by
  induction quoteSets with
  | nil => simp [pairs]
  | cons qs quoteSets ih =>
    simp only [pairs, List.flatMap_cons, List.length_append, List.map_cons, List.sum_cons,
      add_mul] at ih ⊢
    rw [ih, List.length_flatMap]
    simp

/-- A pair with both references is scored when its markout is defined. -/
theorem scorePair_some {refNow refFuture : ℚ}
    (hnow : refAt quote.marketKey quote.side qs.ts = some refNow)
    (hfuture : refAt quote.marketKey quote.side (qs.ts + h) = some refFuture)
    {bps : ℤ} (hbps : forwardMarkoutBps quote.side quote.price refNow refFuture = .ok bps) :
    scorePair refAt qs quote h =
      .ok (some ⟨qs.fixtureId, qs.tickSeq, quote.side, quote.marketKey, h, bps⟩) := by
  rw [scorePair, hnow, hfuture]
  simp [hbps, bind, Except.bind, pure, Except.pure]

/-- **A scoring pass**: it returns when every pair does, and accounts for every pair. -/
theorem scoreR1Markout_ok {marks : List QuoteMarkout} {acc : QuoteAccounting} :
    scoreR1Markout quoteSets refAt horizonsS = .ok (marks, acc) ↔ ∃ outcomes,
      List.Forall₂ (fun p outcome => scorePair refAt p.1 p.2.1 p.2.2 = .ok outcome)
        (pairs quoteSets horizonsS) outcomes ∧
      marks = outcomes.filterMap id ∧ acc.scored = outcomes.countP Option.isSome ∧
      acc.abstained = outcomes.countP Option.isNone := by
  rw [scoreR1Markout, bind_eq_ok]
  constructor
  · rintro ⟨outcomes, hmap, h⟩
    obtain ⟨rfl, rfl⟩ := Prod.mk.inj (Except.ok.inj h)
    exact ⟨outcomes, mapM_eq_ok.mp hmap, rfl, rfl, rfl⟩
  · rintro ⟨outcomes, hmap, rfl, hscored, habstained⟩
    refine ⟨outcomes, mapM_eq_ok.mpr hmap, ?_⟩
    obtain ⟨scored, abstained⟩ := acc
    simp only at hscored habstained
    rw [hscored, habstained]
    rfl

/-- **Every pair is counted once**, and the scored ones have a mark each. -/
theorem accounting {marks : List QuoteMarkout} {acc : QuoteAccounting}
    (hok : scoreR1Markout quoteSets refAt horizonsS = .ok (marks, acc)) :
    acc.scored + acc.abstained =
        (quoteSets.map fun qs => qs.quotes.length).sum * horizonsS.length ∧
      marks.length = acc.scored := by
  obtain ⟨outcomes, hmap, rfl, hscored, habstained⟩ := scoreR1Markout_ok.mp hok
  constructor
  · have hnone : Option.isNone = fun o : Option QuoteMarkout => decide ¬ o.isSome = true := by
      funext o
      cases o <;> rfl
    rw [← length_pairs, hmap.length_eq, hscored, habstained, hnone]
    exact (List.length_eq_countP_add_countP Option.isSome).symm
  · rw [hscored, List.length_filterMap_eq_countP]
    rfl

/-- The mark of a pair, if it has one. -/
def pairMarks (refAt : RefAt) (qs : TargetQuoteSet) (quote : TargetQuote) (h : ℤ) :
    List QuoteMarkout :=
  match scorePair refAt qs quote h with
  | .ok (some mark) => [mark]
  | _ => []

/-- **The marks** are those of the pairs, in their order. -/
theorem marks_eq {marks : List QuoteMarkout} {acc : QuoteAccounting}
    (hok : scoreR1Markout quoteSets refAt horizonsS = .ok (marks, acc)) :
    marks = quoteSets.flatMap fun qs => qs.quotes.flatMap fun quote =>
      horizonsS.flatMap fun h => pairMarks refAt qs quote h := by
  obtain ⟨outcomes, hmap, rfl, -⟩ := scoreR1Markout_ok.mp hok
  have hpairs : ∀ {ps : List (TargetQuoteSet × TargetQuote × ℤ)} {outcomes},
      List.Forall₂ (fun p outcome => scorePair refAt p.1 p.2.1 p.2.2 = .ok outcome) ps outcomes →
      outcomes.filterMap id = ps.flatMap fun p => pairMarks refAt p.1 p.2.1 p.2.2 := by
    intro ps outcomes h
    induction h with
    | nil => rfl
    | @cons p outcome ps outcomes hp _ ih =>
      rw [List.flatMap_cons, ← ih, pairMarks, hp]
      cases outcome with
      | none => rfl
      | some mark => rfl
  rw [hpairs hmap, pairs, List.flatMap_assoc]
  simp only [List.flatMap_assoc, List.flatMap_map]

/-- A pair that raises ends the scoring. -/
theorem scoreR1Markout_error {e : MarkoutError} (hqs : qs ∈ quoteSets) (hquote : quote ∈ qs.quotes)
    (hh : h ∈ horizonsS) (herror : scorePair refAt qs quote h = .error e) :
    ∀ result, scoreR1Markout quoteSets refAt horizonsS ≠ .ok result := by
  rintro ⟨marks, acc⟩ hok
  obtain ⟨outcomes, hmap, -⟩ := scoreR1Markout_ok.mp hok
  obtain ⟨outcome, -, houtcome⟩ := exists_related_of_mem hmap (mem_pairs.mpr ⟨hqs, hquote, hh⟩)
  rw [herror] at houtcome
  exact nomatch houtcome

end Veridex.Maker
