import Veridex.Lib.Json.Spaced
import Veridex.Venues.Resolver

/-!
# How one market is read

`Lists market listing` says that the fields of a market are well formed and what they list. A market is
`Clear` where its outcomes settle the answer in whatever order they come: a kind of outcome has no token,
or there is one outcome of each kind and their tokens are two texts. It is `Unusable` where the answer is
a refusal. A market that is not clear is served in some order of its outcomes
(`Lists.exists_served`).
-/

namespace Veridex.Venues

open Veridex.Lib Veridex.Py

/-! ## Outcomes -/

section Outcomes

variable {α : Type} {x y z : Except ResolveError α}

/-- The market is unavailable. -/
def Unavailable (x : Except ResolveError α) : Prop := ∃ msg, x = .error (.marketUnavailable msg)

/-- The same answer: the text of a refusal is nothing. -/
def SameOutcome (x y : Except ResolveError α) : Prop := Unavailable x ∧ Unavailable y ∨ x = y

theorem SameOutcome.unavailable (h : SameOutcome x y) (hx : Unavailable x) : Unavailable y := by
  rcases h with ⟨-, hy⟩ | rfl
  · exact hy
  · exact hx

theorem not_unavailable_other (e : PyExc) : ¬ Unavailable (.error (.other e) : Except ResolveError α) :=
  fun ⟨_, h⟩ => nomatch h

end Outcomes

/-! ## What a market lists -/

variable (given : ResolverGiven)

/-- The tokens of the outcomes with a label of some kind. -/
def tokensOf (labels : List String) (pairs : List (Decoded × Decoded)) : List Decoded :=
  (pairs.filter fun pair => outcomeLabel given pair.1 ∈ labels).map Prod.snd

/-- What a well formed market lists. -/
structure Listing where
  conditionId : String
  pairs : List (Decoded × Decoded)
  tickSize : PyFloat

/-- The JSON in a field of a market. -/
def loadsOf (market : Market) (name : String) : Option Decoded :=
  match market.lookup name with
  | some (.str text) => Json.loads given.format text.toList
  | _ => none

/-- The fields of a market are well formed. -/
structure Lists (market : Market) (listing : Listing) : Prop where
  condition : market.lookup "conditionId" = some (.str listing.conditionId)
  named : listing.conditionId ≠ ""
  pairs : ∃ outcomes tokenIds, loadsOf given market "outcomes" = some (.arr outcomes) ∧
    loadsOf given market "clobTokenIds" = some (.arr tokenIds) ∧ outcomes ≠ [] ∧
      outcomes.length = tokenIds.length ∧ listing.pairs = outcomes.zip tokenIds
  tick : ∃ value, market.lookup "orderPriceMinTickSize" = some value ∧
    value.toFloat = .ok listing.tickSize

/-- The tick of a market is an integer no float can hold, and its other fields can be read. -/
structure Overflows (market : Market) : Prop where
  condition : (market.lookup "conditionId").isSome
  outcomes : (loadsOf given market "outcomes").isSome
  tokens : (loadsOf given market "clobTokenIds").isSome
  tick : ∃ n : ℤ, market.lookup "orderPriceMinTickSize" = some (.int n) ∧
    PyFloat.overflowBound ≤ |(n : ℚ)|

/-- A kind of outcome has no token. -/
def NoToken (labels : List String) (pairs : List (Decoded × Decoded)) : Prop :=
  ∀ token ∈ tokensOf given labels pairs, token = .null

/-- One outcome of each kind, with tokens of their own. -/
def OnePair (pairs : List (Decoded × Decoded)) (tokenIdYes tokenIdNo : String) : Prop :=
  tokenIdYes ≠ tokenIdNo ∧ tokensOf given outcomeYesLabels pairs = [.str tokenIdYes] ∧
    tokensOf given outcomeNoLabels pairs = [.str tokenIdNo]

/-- The market can be no one's answer. -/
def Unusable (market : Market) : Prop :=
  ¬ Overflows given market ∧ ∀ listing, Lists given market listing →
    NoToken given outcomeYesLabels listing.pairs ∨ NoToken given outcomeNoLabels listing.pairs

/-- The market is no answer, or it is one without a guess. -/
def Clear (market : Market) : Prop :=
  ¬ Overflows given market ∧ ∀ listing, Lists given market listing →
    NoToken given outcomeYesLabels listing.pairs ∨ NoToken given outcomeNoLabels listing.pairs ∨
      ∃ tokenIdYes tokenIdNo, OnePair given listing.pairs tokenIdYes tokenIdNo

variable {given} {market market' : Market} {listing listing' : Listing}
  {pairs pairs' : List (Decoded × Decoded)} {drawMarket : Bool}

theorem Lists.unique (h : Lists given market listing) (h' : Lists given market listing') :
    listing = listing' := by
  obtain ⟨c, p, t⟩ := listing
  obtain ⟨c', p', t'⟩ := listing'
  obtain ⟨hc, -, ⟨o, ts, ho, hts, -, -, rfl⟩, v, hv, hvt⟩ := h
  obtain ⟨hc', -, ⟨o', ts', ho', hts', -, -, rfl⟩, v', hv', hvt'⟩ := h'
  obtain rfl := Value.str.inj (Option.some.inj (hc.symm.trans hc'))
  obtain rfl := Json.arr.inj (Option.some.inj (ho.symm.trans ho'))
  obtain rfl := Json.arr.inj (Option.some.inj (hts.symm.trans hts'))
  obtain rfl := Option.some.inj (hv.symm.trans hv')
  obtain rfl := Except.ok.inj (hvt.symm.trans hvt')
  rfl

/-! ## Reading a market -/

theorem tokensOf_concat (labels : List String) (pair : Decoded × Decoded) :
    tokensOf given labels (pairs ++ [pair]) = tokensOf given labels pairs ++
      if outcomeLabel given pair.1 ∈ labels then [pair.2] else [] := by
  rw [tokensOf, List.filter_append, List.map_append, ← tokensOf, List.filter_singleton]
  by_cases h : outcomeLabel given pair.1 ∈ labels
  · rw [if_pos h, decide_eq_true h, cond_true, List.map_singleton]
  · rw [if_neg h, decide_eq_false h, cond_false, List.map_nil]

/-- No label is of both kinds. -/
theorem not_no_of_yes {label : String} (h : label ∈ outcomeYesLabels) : label ∉ outcomeNoLabels := by
  simp only [outcomeYesLabels, List.mem_cons, List.not_mem_nil, or_false] at h
  rcases h with rfl | rfl <;> decide

/-- **The tokens of the outcomes** are the last of each kind. -/
theorem outcomeTokens_eq : outcomeTokens given pairs =
    ((tokensOf given outcomeYesLabels pairs).getLast?.getD .null,
      (tokensOf given outcomeNoLabels pairs).getLast?.getD .null) := by
  induction pairs using List.reverseRecOn with
  | nil => rfl
  | append_singleton pairs pair ih =>
    rw [outcomeTokens, List.foldl_append, ← outcomeTokens, ih, List.foldl_cons, List.foldl_nil,
      tokensOf_concat, tokensOf_concat]
    by_cases hyes : outcomeLabel given pair.1 ∈ outcomeYesLabels
    · simp [hyes, not_no_of_yes hyes]
    · by_cases hno : outcomeLabel given pair.1 ∈ outcomeNoLabels
      · simp [hyes, hno]
      · simp [hyes, hno]

theorem loadsOf_eq_some {name : String} {decoded : Decoded} :
    loadsOf given market name = some decoded ↔
      ∃ text, market.lookup name = some (.str text) ∧
        Json.loads given.format text.toList = some decoded := by
  rw [loadsOf]
  constructor
  · intro h
    split at h
    · next text htext => exact ⟨text, htext, h⟩
    · exact nomatch h
  · rintro ⟨text, htext, h⟩
    rw [htext]
    exact h

/-- A field of a market is read as its JSON. -/
theorem loadsField_eq (name : String) :
    (marketField market name >>= loadsField given) =
      match loadsOf given market name with
      | some decoded => .ok decoded
      | none => .error (.marketUnavailable "Malformed Gamma market") := by
  rw [marketField, loadsOf]
  cases market.lookup name with
  | none => rfl
  | some value =>
    cases value with
    | str text =>
      dsimp only
      change loadsField given (.str text) = _
      rw [loadsField]
      cases Json.loads given.format text.toList <;> rfl
    | _ => rfl

/-- The reading of a market, by its fields. -/
theorem parseGammaMarket_eq : parseGammaMarket given market drawMarket = (do
    let conditionId ← marketField market "conditionId"
    let outcomes ← marketField market "outcomes" >>= loadsField given
    let tokenIds ← marketField market "clobTokenIds" >>= loadsField given
    let tickSize ← marketField market "orderPriceMinTickSize" >>= tickField
    parseFields given drawMarket conditionId outcomes tokenIds tickSize) := by
  simp only [parseGammaMarket, bind_assoc, parseFields]

theorem marketField_eq {name : String} {value : Value} (h : market.lookup name = some value) :
    marketField market name = .ok value := by
  rw [marketField, h]

/-- **A well formed market** is its tokens. -/
theorem parse_lists (h : Lists given market listing) : parseGammaMarket given market drawMarket =
    tokensMarket listing.conditionId listing.tickSize drawMarket
      (outcomeTokens given listing.pairs) := by
  obtain ⟨hcondition, hnamed, ⟨outcomes, tokenIds, houtcomes, htokens, hne, hlength, hpairs⟩,
    value, hvalue, htick⟩ := h
  have htick' : tickField value = .ok listing.tickSize := by rw [tickField, htick]
  rw [parseGammaMarket_eq, marketField_eq hcondition, loadsField_eq, loadsField_eq, houtcomes, htokens,
    marketField_eq hvalue]
  change (tickField value >>= parseFields given drawMarket (.str listing.conditionId)
    (.arr outcomes) (.arr tokenIds)) = _
  rw [htick']
  change parseFields given drawMarket (.str listing.conditionId) (.arr outcomes) (.arr tokenIds)
    listing.tickSize = _
  rw [parseFields, if_neg hnamed, if_neg (not_or.mpr ⟨hne, not_not.mpr hlength⟩), hpairs]

variable (drawMarket) in
/-- **A tick beyond every float** raises. -/
theorem parse_overflows (h : Overflows given market) :
    ∃ e, parseGammaMarket given market drawMarket = .error (.other e) := by
  obtain ⟨hcondition, houtcomes, htokens, n, hn, hlarge⟩ := h
  obtain ⟨condition, hcondition⟩ := Option.isSome_iff_exists.mp hcondition
  obtain ⟨outcomes, houtcomes⟩ := Option.isSome_iff_exists.mp houtcomes
  obtain ⟨tokenIds, htokens⟩ := Option.isSome_iff_exists.mp htokens
  refine ⟨⟨.exception, "int too large to convert to float"⟩, ?_⟩
  rw [parseGammaMarket_eq, marketField_eq hcondition, loadsField_eq, loadsField_eq, houtcomes, htokens,
    marketField_eq hn]
  change (tickField (.int n) >>= parseFields given drawMarket condition outcomes tokenIds) = _
  rw [tickField, Value.toFloat, if_neg (not_lt.mpr hlarge)]
  rfl

/-- What a tick that is no integer beyond the floats is read as. -/
theorem tickField_cases {value : Value}
    (h : ¬ ∃ n : ℤ, value = .int n ∧ PyFloat.overflowBound ≤ |(n : ℚ)|) :
    (∃ tick, value.toFloat = .ok tick ∧ tickField value = .ok tick) ∨
      Unavailable (tickField value) := by
  have hrefused : ∀ msg cls, (cls = .typeError ∨ cls = .valueError) →
      value.toFloat = .error ⟨cls, msg⟩ → Unavailable (tickField value) := by
    intro msg cls hcls hfloat
    exact ⟨_, by rw [tickField, hfloat]; exact if_pos hcls⟩
  cases value with
  | int n =>
    have hsmall : |(n : ℚ)| < PyFloat.overflowBound := lt_of_not_ge fun hlarge => h ⟨n, rfl, hlarge⟩
    have hfloat : (Value.int n).toFloat = .ok (.fin n) := if_pos hsmall
    exact .inl ⟨_, hfloat, by rw [tickField, hfloat]⟩
  | str s =>
    cases hs : floatOfText s with
    | some x =>
      have hfloat : (Value.str s).toFloat = .ok x := by rw [Value.toFloat, hs]
      exact .inl ⟨_, hfloat, by rw [tickField, hfloat]⟩
    | none =>
      have hfloat : (Value.str s).toFloat =
          .error ⟨.valueError, "could not convert string to float"⟩ := by
        rw [Value.toFloat, hs]
      exact .inr (hrefused _ _ (.inr rfl) hfloat)
  | bool b => exact .inl ⟨_, rfl, rfl⟩
  | float x => exact .inl ⟨_, rfl, rfl⟩
  | _ => exact .inr (hrefused _ _ (.inl rfl) rfl)

/-- Fields that list nothing are refused. -/
theorem parseFields_unavailable {condition : Value} {outcomes tokenIds : Decoded} {tick : PyFloat}
    (h : ∀ conditionId os ts, condition = .str conditionId → outcomes = .arr os → tokenIds = .arr ts →
      conditionId ≠ "" → os ≠ [] → os.length ≠ ts.length) :
    Unavailable (parseFields given drawMarket condition outcomes tokenIds tick) := by
  cases condition with
  | str conditionId =>
    by_cases hnamed : conditionId = ""
    · exact ⟨_, if_pos hnamed⟩
    · cases outcomes with
      | arr os =>
        cases tokenIds with
        | arr ts =>
          have hrefused : os = [] ∨ os.length ≠ ts.length := by
            by_cases hne : os = []
            · exact .inl hne
            · exact .inr (h conditionId os ts rfl rfl rfl hnamed hne)
          exact ⟨_, (if_neg hnamed).trans (if_pos hrefused)⟩
        | _ => exact ⟨_, if_neg hnamed⟩
      | _ => exact ⟨_, if_neg hnamed⟩
  | _ => exact ⟨_, rfl⟩

/-- **A market that is not well formed** is unavailable. -/
theorem parse_malformed (h : ¬ Overflows given market)
    (hlists : ∀ listing, ¬ Lists given market listing) :
    Unavailable (parseGammaMarket given market drawMarket) := by
  rw [parseGammaMarket_eq, loadsField_eq, loadsField_eq]
  cases hcondition : market.lookup "conditionId" with
  | none => exact ⟨_, by rw [marketField, hcondition]; rfl⟩
  | some condition =>
    rw [marketField_eq hcondition]
    cases houtcomes : loadsOf given market "outcomes" with
    | none => exact ⟨_, rfl⟩
    | some outcomes =>
      cases htokens : loadsOf given market "clobTokenIds" with
      | none => exact ⟨_, rfl⟩
      | some tokenIds =>
        cases hvalue : market.lookup "orderPriceMinTickSize" with
        | none => exact ⟨_, by rw [marketField, hvalue]; rfl⟩
        | some value =>
          rw [marketField_eq hvalue]
          change Unavailable (tickField value >>=
            parseFields given drawMarket condition outcomes tokenIds)
          have hsmall : ¬ ∃ n : ℤ, value = .int n ∧ PyFloat.overflowBound ≤ |(n : ℚ)| := by
            rintro ⟨n, rfl, hlarge⟩
            refine h ⟨?_, ?_, ?_, n, hvalue, hlarge⟩
            · rw [hcondition]; rfl
            · rw [houtcomes]; rfl
            · rw [htokens]; rfl
          rcases tickField_cases hsmall with ⟨tick, hfloat, htick⟩ | ⟨msg, htick⟩
          · rw [htick]
            change Unavailable (parseFields given drawMarket condition outcomes tokenIds tick)
            refine parseFields_unavailable ?_
            rintro conditionId os ts rfl rfl rfl hnamed hne hlength
            exact hlists ⟨conditionId, os.zip ts, tick⟩
              ⟨hcondition, hnamed, ⟨os, ts, houtcomes, htokens, hne, hlength, rfl⟩, value, hvalue, hfloat⟩
          · rw [htick]
            exact ⟨msg, rfl⟩

/-! ## Tokens in any order -/

theorem tokensOf_perm (labels : List String) (h : pairs'.Perm pairs) :
    (tokensOf given labels pairs').Perm (tokensOf given labels pairs) :=
  (h.filter _).map _

theorem NoToken.perm {labels : List String} (hnone : NoToken given labels pairs)
    (h : pairs'.Perm pairs) : NoToken given labels pairs' :=
  fun token htoken => hnone token ((tokensOf_perm labels h).mem_iff.mp htoken)

theorem NoToken.last {labels : List String} (h : NoToken given labels pairs) :
    (tokensOf given labels pairs).getLast?.getD .null = .null := by
  cases hlast : (tokensOf given labels pairs).getLast? with
  | none => rfl
  | some token => exact h token (List.mem_of_getLast? hlast)

theorem OnePair.perm {tokenIdYes tokenIdNo : String} (hone : OnePair given pairs tokenIdYes tokenIdNo)
    (h : pairs'.Perm pairs) : OnePair given pairs' tokenIdYes tokenIdNo := by
  obtain ⟨hne, hyes, hno⟩ := hone
  refine ⟨hne, ?_, ?_⟩
  · exact List.perm_singleton.mp (hyes ▸ tokensOf_perm outcomeYesLabels h)
  · exact List.perm_singleton.mp (hno ▸ tokensOf_perm outcomeNoLabels h)

section Tokens

variable {conditionId : String} {tickSize : PyFloat}

/-- Without a token of one kind there is no market. -/
theorem tokensMarket_none (h : NoToken given outcomeYesLabels pairs ∨ NoToken given outcomeNoLabels pairs) :
    Unavailable (tokensMarket conditionId tickSize drawMarket (outcomeTokens given pairs)) := by
  rw [outcomeTokens_eq]
  rcases h with hyes | hno
  · rw [hyes.last]
    exact ⟨_, rfl⟩
  · rw [hno.last]
    generalize (tokensOf given outcomeYesLabels pairs).getLast?.getD .null = token
    cases token <;> exact ⟨_, rfl⟩

/-- The market of one outcome of each kind. -/
theorem tokensMarket_one {tokenIdYes tokenIdNo : String}
    (h : OnePair given pairs tokenIdYes tokenIdNo) :
    tokensMarket conditionId tickSize drawMarket (outcomeTokens given pairs) = .ok {
      tokenIdYes := tokenIdYes
      tokenIdNo := tokenIdNo
      drawMarket := drawMarket
      conditionId := conditionId
      tickSize := tickSize } := by
  rw [outcomeTokens_eq, h.2.1, h.2.2]
  rfl

/-- With a token of each kind last, there is no refusal. -/
theorem tokensMarket_some {tokenYes tokenNo : Decoded} (hyes : tokenYes ≠ .null) (hno : tokenNo ≠ .null) :
    ¬ Unavailable (tokensMarket conditionId tickSize drawMarket (tokenYes, tokenNo)) := by
  rintro ⟨msg, h⟩
  unfold tokensMarket at h
  split at h
  · next heq => exact hyes (Prod.mk.inj heq).1
  · next heq => exact hno (Prod.mk.inj heq).2
  · exact nomatch h
  · exact nomatch h

end Tokens

/-! ## A market with its outcomes in another order -/

variable (given) in
/-- The fields of a market, its outcomes and their tokens in another order. -/
structure Rearranged (market market' : Market) : Prop where
  others : ∀ name, name ≠ "outcomes" → name ≠ "clobTokenIds" →
    market'.lookup name = market.lookup name
  pairs : ∃ outcomes tokenIds outcomes' tokenIds',
    loadsOf given market "outcomes" = some (.arr outcomes) ∧
      loadsOf given market "clobTokenIds" = some (.arr tokenIds) ∧
        loadsOf given market' "outcomes" = some (.arr outcomes') ∧
          loadsOf given market' "clobTokenIds" = some (.arr tokenIds') ∧
            outcomes.length = tokenIds.length ∧ outcomes'.length = tokenIds'.length ∧
              (outcomes'.zip tokenIds').Perm (outcomes.zip tokenIds)

theorem Rearranged.symm (h : Rearranged given market market') : Rearranged given market' market := by
  obtain ⟨hothers, o, t, o', t', ho, ht, ho', ht', hlength, hlength', hperm⟩ := h
  exact ⟨fun name hout htok => (hothers name hout htok).symm,
    o', t', o, t, ho', ht', ho, ht, hlength', hlength, hperm.symm⟩

/-- A market with its outcomes in another order overflows when it did. -/
theorem Rearranged.overflows (h : Rearranged given market market') (ho : Overflows given market) :
    Overflows given market' := by
  obtain ⟨hothers, o, t, o', t', -, -, ho', ht', -, -, -⟩ := h
  obtain ⟨hcondition, -, -, htick⟩ := ho
  refine ⟨?_, by rw [ho']; rfl, by rw [ht']; rfl, ?_⟩
  · rwa [hothers _ (by decide) (by decide)]
  · rwa [hothers _ (by decide) (by decide)]

/-- It lists the same, in that order. -/
theorem Rearranged.lists (h : Rearranged given market market') (hlists : Lists given market listing) :
    ∃ pairs', Lists given market' { listing with pairs := pairs' } ∧ pairs'.Perm listing.pairs := by
  obtain ⟨hothers, o, t, o', t', ho, ht, ho', ht', hlength, hlength', hperm⟩ := h
  obtain ⟨hcondition, hnamed, ⟨os, ts, hos, hts, hne, -, hpairs⟩, htick⟩ := hlists
  obtain rfl := Json.arr.inj (Option.some.inj (ho.symm.trans hos))
  obtain rfl := Json.arr.inj (Option.some.inj (ht.symm.trans hts))
  have hsize : o'.length = o.length := by
    have hzip := hperm.length_eq
    rwa [List.length_zip, List.length_zip, ← hlength, ← hlength', min_self, min_self] at hzip
  have hne' : o' ≠ [] := fun hnil => hne (List.length_eq_zero_iff.mp (hsize ▸ hnil ▸ rfl))
  refine ⟨o'.zip t', ⟨?_, hnamed, ⟨o', t', ho', ht', hne', hlength', rfl⟩, ?_⟩, hpairs ▸ hperm⟩
  · rwa [hothers _ (by decide) (by decide)]
  · rwa [hothers _ (by decide) (by decide)]

/-- **A clear market** reads the same in any order of its outcomes. -/
theorem Clear.parse_same (hclear : Clear given market) (h : Rearranged given market market') :
    SameOutcome (parseGammaMarket given market drawMarket)
      (parseGammaMarket given market' drawMarket) := by
  obtain ⟨hover, hdecides⟩ := hclear
  by_cases hlists : ∃ listing, Lists given market listing
  · obtain ⟨listing, hlists⟩ := hlists
    obtain ⟨pairs', hlists', hperm⟩ := h.lists hlists
    rw [parse_lists hlists, parse_lists hlists']
    rcases hdecides listing hlists with hyes | hno | ⟨yes, no, hone⟩
    · exact .inl ⟨tokensMarket_none (.inl hyes), tokensMarket_none (.inl (hyes.perm hperm))⟩
    · exact .inl ⟨tokensMarket_none (.inr hno), tokensMarket_none (.inr (hno.perm hperm))⟩
    · exact .inr ((tokensMarket_one hone).trans (tokensMarket_one (hone.perm hperm)).symm)
  · have hlists' : ∀ listing, ¬ Lists given market' listing := by
      intro listing hlisting
      obtain ⟨pairs, hlisted, -⟩ := h.symm.lists hlisting
      exact hlists ⟨_, hlisted⟩
    exact .inl ⟨parse_malformed hover fun listing hlisting => hlists ⟨listing, hlisting⟩,
      parse_malformed (fun hover' => hover (h.symm.overflows hover')) hlists'⟩

/-- **An unusable market** is unavailable. -/
theorem Unusable.parse (h : Unusable given market) :
    Unavailable (parseGammaMarket given market drawMarket) := by
  by_cases hlists : ∃ listing, Lists given market listing
  · obtain ⟨listing, hlists⟩ := hlists
    rw [parse_lists hlists]
    exact tokensMarket_none (h.2 listing hlists)
  · exact parse_malformed h.1 fun listing hlisting => hlists ⟨listing, hlisting⟩

theorem Unusable.rearranged (h : Unusable given market) (hsame : Rearranged given market market') :
    Unusable given market' := by
  refine ⟨fun hover => h.1 (hsame.symm.overflows hover), fun listing hlists => ?_⟩
  obtain ⟨pairs, hlisted, hperm⟩ := hsame.symm.lists hlists
  exact (h.2 _ hlisted).imp (fun hyes => hyes.perm hperm.symm) fun hno => hno.perm hperm.symm

/-- A market's two lists, written anew. -/
def Market.rewrite (market : Market) (outcomes tokenIds : String) : Market :=
  market.map fun field =>
    (field.1, if field.1 = "outcomes" then .str outcomes
      else if field.1 = "clobTokenIds" then .str tokenIds else field.2)

theorem lookup_mapKeyed {β : Type} (f : String → β → β) (fields : List (String × β)) (name : String) :
    (fields.map fun field => (field.1, f field.1 field.2)).lookup name =
      (fields.lookup name).map (f name) := by
  induction fields with
  | nil => rfl
  | cons field rest ih =>
    rw [List.map_cons, List.lookup_cons, List.lookup_cons]
    cases hname : name == field.1 with
    | true => rw [eq_of_beq hname]; rfl
    | false => exact ih

theorem lookup_rewrite (outcomes tokenIds name : String) :
    (market.rewrite outcomes tokenIds).lookup name = (market.lookup name).map fun value =>
      if name = "outcomes" then .str outcomes
      else if name = "clobTokenIds" then .str tokenIds else value :=
  lookup_mapKeyed (fun name value => if name = "outcomes" then Value.str outcomes
    else if name = "clobTokenIds" then Value.str tokenIds else value) market name

/-- **The outcomes of a market** can come in any order. -/
theorem Lists.exists_rearranged (h : Lists given market listing) (hperm : pairs'.Perm listing.pairs) :
    ∃ market', Rearranged given market market' ∧
      Lists given market' { listing with pairs := pairs' } := by
  obtain ⟨hcondition, hnamed, ⟨outcomes, tokenIds, houtcomes, htokens, hne, hlength, hpairs⟩, htick⟩ := h
  have hfst : (pairs'.map Prod.fst).Perm outcomes := by
    have hmap := hperm.map Prod.fst
    rwa [hpairs, List.map_fst_zip hlength.le] at hmap
  have hsnd : (pairs'.map Prod.snd).Perm tokenIds := by
    have hmap := hperm.map Prod.snd
    rwa [hpairs, List.map_snd_zip hlength.ge] at hmap
  have hread : ∀ {name : String} {items items' : List Decoded},
      loadsOf given market name = some (.arr items) → items'.Perm items →
        (market.lookup name).isSome ∧ Json.loads given.format
          (String.ofList (Json.spaced given.format (.arr items'))).toList = some (.arr items') := by
    intro name items items' hloads hitems
    obtain ⟨text, htext, hloads⟩ := loadsOf_eq_some.mp hloads
    refine ⟨by rw [htext]; rfl, ?_⟩
    have hdistinct : Json.Distinct (.arr items) := Json.distinct_of_loads given.format hloads
    rw [String.toList_ofList]
    refine Json.loads_spaced given.format ?_
    exact Json.distinctItems_iff.mpr fun j hj =>
      Json.distinctItems_iff.mp hdistinct j (hitems.mem_iff.mp hj)
  obtain ⟨houtSome, houtRead⟩ := hread houtcomes hfst
  obtain ⟨htokSome, htokRead⟩ := hread htokens hsnd
  obtain ⟨out, hout⟩ := Option.isSome_iff_exists.mp houtSome
  obtain ⟨tok, htok⟩ := Option.isSome_iff_exists.mp htokSome
  generalize String.ofList (Json.spaced given.format (.arr (pairs'.map Prod.fst))) = outText at houtRead
  generalize String.ofList (Json.spaced given.format (.arr (pairs'.map Prod.snd))) = tokText at htokRead
  have hothers : ∀ name, name ≠ "outcomes" → name ≠ "clobTokenIds" →
      (market.rewrite outText tokText).lookup name = market.lookup name := by
    intro name hname hname'
    simp only [lookup_rewrite, if_neg hname, if_neg hname', Option.map_id']
  have hout' : loadsOf given (market.rewrite outText tokText) "outcomes" =
      some (.arr (pairs'.map Prod.fst)) :=
    loadsOf_eq_some.mpr ⟨outText, by rw [lookup_rewrite, hout]; rfl, houtRead⟩
  have htok' : loadsOf given (market.rewrite outText tokText) "clobTokenIds" =
      some (.arr (pairs'.map Prod.snd)) :=
    loadsOf_eq_some.mpr ⟨tokText, by rw [lookup_rewrite, htok]; rfl, htokRead⟩
  have hzip : (pairs'.map Prod.fst).zip (pairs'.map Prod.snd) = pairs' := by
    have hunzip := List.zip_unzip pairs'
    rwa [List.unzip_eq_map] at hunzip
  have hsame : (pairs'.map Prod.fst).length = (pairs'.map Prod.snd).length := by
    rw [List.length_map, List.length_map]
  have hne' : pairs'.map Prod.fst ≠ [] := fun hnil => hne (List.nil_perm.mp (hnil ▸ hfst))
  refine ⟨market.rewrite outText tokText, ⟨hothers, outcomes, tokenIds, _, _, houtcomes, htokens, hout',
    htok', hlength, hsame, hzip.symm ▸ hpairs ▸ hperm⟩, ?_⟩
  refine ⟨?_, hnamed, ⟨_, _, hout', htok', hne', hsame, hzip.symm⟩, ?_⟩
  · rwa [hothers _ (by decide) (by decide)]
  · rwa [hothers _ (by decide) (by decide)]

/-- An element, before the others. -/
theorem exists_perm_cons {α : Type} {a : α} {l : List α} (h : a ∈ l) : ∃ rest, l.Perm (a :: rest) := by
  obtain ⟨s, t, rfl⟩ := List.append_of_mem h
  exact ⟨s ++ t, List.perm_middle⟩

variable (drawMarket) in
/-- **Where there is a token of each kind**, the market is served in some order of its outcomes. -/
theorem Lists.exists_served (h : Lists given market listing)
    (hyes : ¬ NoToken given outcomeYesLabels listing.pairs)
    (hno : ¬ NoToken given outcomeNoLabels listing.pairs) :
    ∃ market', Rearranged given market market' ∧
      ¬ Unavailable (parseGammaMarket given market' drawMarket) := by
  simp only [NoToken, not_forall] at hyes hno
  obtain ⟨tokenYes, hmemYes, hneYes⟩ := hyes
  obtain ⟨tokenNo, hmemNo, hneNo⟩ := hno
  obtain ⟨pairYes, hpairYes, rfl⟩ := List.mem_map.mp hmemYes
  obtain ⟨pairNo, hpairNo, rfl⟩ := List.mem_map.mp hmemNo
  obtain ⟨hinYes, hlabelYes⟩ := List.mem_filter.mp hpairYes
  obtain ⟨hinNo, hlabelNo⟩ := List.mem_filter.mp hpairNo
  have hlabelYes := of_decide_eq_true hlabelYes
  have hlabelNo := of_decide_eq_true hlabelNo
  have hnotYes : outcomeLabel given pairNo.1 ∉ outcomeYesLabels :=
    fun hmem => not_no_of_yes hmem hlabelNo
  obtain ⟨rest, hrest⟩ := exists_perm_cons hinYes
  have hinRest : pairNo ∈ rest := by
    rcases List.mem_cons.mp (hrest.mem_iff.mp hinNo) with rfl | hmem
    · exact absurd hlabelYes hnotYes
    · exact hmem
  obtain ⟨others, hothers⟩ := exists_perm_cons hinRest
  have hperm : (others ++ [pairYes] ++ [pairNo]).Perm listing.pairs := by
    have hlast : (others ++ [pairYes] ++ [pairNo]).Perm (pairYes :: pairNo :: others) := by
      rw [List.append_assoc]
      exact List.perm_append_comm
    exact hlast.trans ((hothers.symm.cons pairYes).trans hrest.symm)
  obtain ⟨market', hsame, hlists⟩ := h.exists_rearranged hperm
  refine ⟨market', hsame, ?_⟩
  rw [parse_lists hlists, outcomeTokens_eq, tokensOf_concat, tokensOf_concat, tokensOf_concat,
    tokensOf_concat, if_pos hlabelYes, if_neg hnotYes, if_neg (not_no_of_yes hlabelYes),
    if_pos hlabelNo, List.append_nil, List.getLast?_concat, List.getLast?_concat]
  exact tokensMarket_some hneYes hneNo

end Veridex.Venues
