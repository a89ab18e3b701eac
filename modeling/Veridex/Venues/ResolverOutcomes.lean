import Veridex.Venues.MarketReading

/-!
# What the resolver may answer

A resolver that never guesses answers with the one market a reference matches, where that lists one
outcome of each kind with tokens of their own, and with `MarketUnavailable` otherwise; and it answers the
same in whatever order the markets of the reply, and the outcomes of a market, come.
`neverGuesses_iff` says on which replies the resolver does.
-/

namespace Veridex.Venues

open Veridex.Lib Veridex.Py

variable {given : ResolverGiven} {market market' : Market} {listing : Listing} {drawMarket : Bool}

/-! ## The markets a reference matches -/

section Matching

variable (given) (marketRef fixtureHint : String) (homeTeam awayTeam : Option String)

/-- What a reference asks of a market. -/
def refTest : Except ResolveError (Market → Bool) :=
  if isStructured marketRef then marketTest given marketRef homeTeam awayTeam
  else .ok (hasSlug fixtureHint)

/-- The markets of a reply that match a reference. -/
def matching (reply : List Value) : List Market :=
  match refTest given marketRef fixtureHint homeTeam awayTeam with
  | .ok test => (replyMarkets (.list reply)).filter test
  | .error _ => []

/-- The answer to a reply. -/
def answer (reply : List Value) : Except ResolveError ResolvedMarket :=
  resolveMarket given (fun _ => .ok (.list reply)) marketRef fixtureHint homeTeam awayTeam

/-- Whether the reference is of a draw. -/
def asksDraw : Bool := isStructured marketRef && isDrawRef marketRef

/-- **The same reply**, its markets and the outcomes of each in any order. -/
def SameReply (reply reply' : List Value) : Prop :=
  ∃ mid, reply.Perm mid ∧ List.Forall₂ (fun raw raw' => raw = raw' ∨
    ∃ market market', raw = .dict market ∧ raw' = .dict market' ∧
      Rearranged given market market') mid reply'

/-- An answer is a refusal, or the one market that matches, by its one outcome of each kind. -/
def Honest (reply : List Value) : Prop :=
  Unavailable (answer given marketRef fixtureHint homeTeam awayTeam reply) ∨
    ∃ market listing tokenIdYes tokenIdNo,
      matching given marketRef fixtureHint homeTeam awayTeam reply = [market] ∧
        Lists given market listing ∧ OnePair given listing.pairs tokenIdYes tokenIdNo ∧
          answer given marketRef fixtureHint homeTeam awayTeam reply = .ok {
            tokenIdYes := tokenIdYes
            tokenIdNo := tokenIdNo
            drawMarket := asksDraw marketRef
            conditionId := listing.conditionId
            tickSize := listing.tickSize }

/-- **The resolver does not guess** on a reply. -/
def NeverGuesses (reply : List Value) : Prop :=
  Honest given marketRef fixtureHint homeTeam awayTeam reply ∧
    ∀ reply', SameReply given reply reply' →
      SameOutcome (answer given marketRef fixtureHint homeTeam awayTeam reply)
        (answer given marketRef fixtureHint homeTeam awayTeam reply')

/-- The one market that matches is clear; where a slug matches several, each of them is unusable. -/
def Settled (reply : List Value) : Prop :=
  (∀ market, matching given marketRef fixtureHint homeTeam awayTeam reply = [market] →
    Clear given market) ∧
  (isStructured marketRef = false →
    2 ≤ (matching given marketRef fixtureHint homeTeam awayTeam reply).length →
      ∀ market ∈ matching given marketRef fixtureHint homeTeam awayTeam reply, Unusable given market)

end Matching

variable {marketRef fixtureHint : String} {homeTeam awayTeam : Option String}
  {reply reply' : List Value} {test : Market → Bool}

/-- What `_match_1x2` asks is asked of the question; a side that is none, or has no team, is refused. -/
theorem match1x2_cases (param : String) :
    (∃ asks : String → Bool, match1x2 given param homeTeam awayTeam =
      .ok fun market => asks (question given market)) ∨
    Unavailable (match1x2 given param homeTeam awayTeam) := by
  rw [match1x2]
  split
  · exact .inl ⟨given.asksDraw, rfl⟩
  · split
    · exact .inr ⟨_, rfl⟩
    · dsimp only
      generalize (if param = "home" then homeTeam else awayTeam).getD "" = team
      split
      · exact .inr ⟨_, rfl⟩
      · exact .inl ⟨fun text => (given.winTeam (strip text)).any fun winner =>
          given.normalizeTeam winner = given.normalizeTeam team, rfl⟩

/-- What `_match_ou` asks is asked of the question; a line that is no number is refused. -/
theorem matchOu_cases (line : String) :
    (∃ asks : String → Bool, matchOu given line = .ok fun market => asks (question given market)) ∨
    Unavailable (matchOu given line) := by
  rw [matchOu]
  split
  · exact .inr ⟨_, rfl⟩
  · next targetLine _ =>
    exact .inl ⟨fun text => (given.ouLines text).any (sameLine · targetLine) &&
      !given.namesHalf text && given.namesMatchup text, rfl⟩

variable (given marketRef homeTeam awayTeam) in
/-- What a structured reference asks is asked of the question, or the reference is refused. -/
theorem marketTest_cases :
    (∃ asks : String → Bool, marketTest given marketRef homeTeam awayTeam =
      .ok fun market => asks (question given market)) ∨
    Unavailable (marketTest given marketRef homeTeam awayTeam) := by
  simp only [marketTest]
  split
  · exact .inr ⟨_, rfl⟩
  · split
    · exact match1x2_cases _
    · split
      · exact matchOu_cases _
      · exact .inr ⟨_, rfl⟩

/-- **What a reference asks** of a market is asked of its question or of its slug. -/
theorem refTest_congr (h : refTest given marketRef fixtureHint homeTeam awayTeam = .ok test)
    (hquestion : market'.lookup "question" = market.lookup "question")
    (hslug : market'.lookup "slug" = market.lookup "slug") : test market' = test market := by
  rw [refTest] at h
  split at h
  · rcases marketTest_cases given marketRef homeTeam awayTeam with ⟨asks, hasks⟩ | ⟨msg, hmsg⟩
    · obtain rfl := Except.ok.inj (hasks.symm.trans h)
      simp only [question, hquestion]
    · exact nomatch hmsg.symm.trans h
  · obtain rfl := Except.ok.inj h
    rw [hasSlug, hasSlug, hslug]

theorem isStructured_cases (marketRef : String) :
    isStructured marketRef = true ∨ isStructured marketRef = false := by
  cases isStructured marketRef
  · exact .inr rfl
  · exact .inl rfl

/-- The answer of a structured reference. -/
theorem answer_structured (h : isStructured marketRef = true) :
    answer given marketRef fixtureHint homeTeam awayTeam reply =
      (selectMarket given (replyMarkets (.list reply)) marketRef homeTeam awayTeam >>= fun market =>
        parseGammaMarket given market (isDrawRef marketRef)) := by
  rw [answer, resolveMarket]
  exact if_pos h

/-- The answer of a slug. -/
theorem answer_legacy (h : isStructured marketRef = false) :
    answer given marketRef fixtureHint homeTeam awayTeam reply =
      match (replyMarkets (.list reply)).find? (hasSlug fixtureHint) with
      | none => .error (.marketUnavailable "No Gamma market found for slug")
      | some market => parseGammaMarket given market false := by
  rw [answer, resolveMarket]
  exact if_neg (by rw [h]; decide)

theorem matching_legacy (h : isStructured marketRef = false) :
    matching given marketRef fixtureHint homeTeam awayTeam reply =
      (replyMarkets (.list reply)).filter (hasSlug fixtureHint) := by
  have htest : refTest given marketRef fixtureHint homeTeam awayTeam = .ok (hasSlug fixtureHint) :=
    if_neg (by rw [h]; decide)
  rw [matching, htest]

variable (fixtureHint) in
/-- The answer of a reference that is not refused, by what matches. -/
theorem selectMarket_eq (h : isStructured marketRef = true)
    (htest : marketTest given marketRef homeTeam awayTeam = .ok test) :
    selectMarket given (replyMarkets (.list reply)) marketRef homeTeam awayTeam =
      match matching given marketRef fixtureHint homeTeam awayTeam reply with
      | [market] => .ok market
      | [] => .error (.marketUnavailable "No market in event matched")
      | _ => .error (.marketUnavailable "Ambiguous market selection") := by
  have href : refTest given marketRef fixtureHint homeTeam awayTeam = .ok test :=
    (if_pos h).trans htest
  rw [selectMarket, htest, matching, href]
  rfl

/-- **A slug matches**: the first market is read. -/
theorem answer_of_slug (hlegacy : isStructured marketRef = false) {rest : List Market}
    (h : matching given marketRef fixtureHint homeTeam awayTeam reply = market :: rest) :
    answer given marketRef fixtureHint homeTeam awayTeam reply =
      parseGammaMarket given market (asksDraw marketRef) := by
  rw [matching_legacy hlegacy] at h
  have hfind : (replyMarkets (.list reply)).find? (hasSlug fixtureHint) = some market := by
    rw [← List.head?_filter, h, List.head?_cons]
  rw [answer_legacy hlegacy, hfind, asksDraw, hlegacy, Bool.false_and]

/-- **One market matches**: it is read. -/
theorem answer_of_one (h : matching given marketRef fixtureHint homeTeam awayTeam reply = [market]) :
    answer given marketRef fixtureHint homeTeam awayTeam reply =
      parseGammaMarket given market (asksDraw marketRef) := by
  rcases isStructured_cases marketRef with hstructured | hlegacy
  · rw [answer_structured hstructured, asksDraw, hstructured, Bool.true_and]
    cases htest : marketTest given marketRef homeTeam awayTeam with
    | ok test =>
      rw [selectMarket_eq fixtureHint hstructured htest, h]
      rfl
    | error e =>
      have href : refTest given marketRef fixtureHint homeTeam awayTeam = .error e :=
        (if_pos hstructured).trans htest
      rw [matching, href] at h
      exact nomatch h
  · exact answer_of_slug hlegacy h

/-- **None matches, or several do** that are told apart by their questions: there is no answer. -/
theorem answer_of_not_one
    (h : ∀ market, matching given marketRef fixtureHint homeTeam awayTeam reply ≠ [market])
    (hstructured : isStructured marketRef = true ∨
      matching given marketRef fixtureHint homeTeam awayTeam reply = []) :
    Unavailable (answer given marketRef fixtureHint homeTeam awayTeam reply) := by
  rcases isStructured_cases marketRef with hform | hlegacy
  · rw [answer_structured hform]
    rcases marketTest_cases given marketRef homeTeam awayTeam with ⟨asks, hasks⟩ | ⟨msg, hmsg⟩
    · rw [selectMarket_eq fixtureHint hform hasks]
      split
      · next market heq => exact absurd heq (h market)
      · exact ⟨_, rfl⟩
      · exact ⟨_, rfl⟩
    · exact ⟨msg, by rw [selectMarket, hmsg]; rfl⟩
  · have hnil := hstructured.resolve_left (by rw [hlegacy]; decide)
    rw [matching_legacy hlegacy] at hnil
    have hfind : (replyMarkets (.list reply)).find? (hasSlug fixtureHint) = none := by
      rw [← List.head?_filter, hnil, List.head?_nil]
    exact ⟨_, by rw [answer_legacy hlegacy, hfind]⟩

/-! ## The same reply -/

/-- A market, or the market with its outcomes in another order. -/
def SameMarket (given : ResolverGiven) (market market' : Market) : Prop :=
  market = market' ∨ Rearranged given market market'

theorem SameMarket.asked (h : SameMarket given market market')
    (htest : refTest given marketRef fixtureHint homeTeam awayTeam = .ok test) :
    test market' = test market := by
  rcases h with rfl | hsame
  · rfl
  · exact refTest_congr htest (hsame.others _ (by decide) (by decide))
      (hsame.others _ (by decide) (by decide))

theorem SameMarket.parse (h : SameMarket given market market') (hclear : Clear given market) :
    SameOutcome (parseGammaMarket given market drawMarket)
      (parseGammaMarket given market' drawMarket) := by
  rcases h with rfl | hsame
  · exact .inr rfl
  · exact hclear.parse_same hsame

theorem SameMarket.unusable (h : SameMarket given market market') (hunusable : Unusable given market) :
    Unusable given market' := by
  rcases h with rfl | hsame
  · exact hunusable
  · exact hunusable.rearranged hsame

theorem filter_forall₂ {α : Type} {R : α → α → Prop} {p : α → Bool} {l l' : List α}
    (h : List.Forall₂ R l l') (hp : ∀ a b, R a b → p b = p a) :
    List.Forall₂ R (l.filter p) (l'.filter p) := by
  induction h with
  | nil => exact .nil
  | cons hab _ ih =>
    rw [List.filter_cons, List.filter_cons, hp _ _ hab]
    split
    · exact .cons hab ih
    · exact ih

/-- The markets of the same reply are the same markets. -/
theorem SameReply.markets (h : SameReply given reply reply') :
    ∃ mid, (replyMarkets (.list reply)).Perm mid ∧
      List.Forall₂ (SameMarket given) mid (replyMarkets (.list reply')) := by
  obtain ⟨mid, hperm, hall⟩ := h
  refine ⟨replyMarkets (.list mid), hperm.filterMap _, ?_⟩
  clear hperm
  induction hall with
  | nil => exact .nil
  | @cons raw raw' _ _ hraw _ ih =>
    rcases hraw with rfl | ⟨market, market', rfl, rfl, hsame⟩
    · cases raw with
      | dict market => exact .cons (.inl rfl) ih
      | _ => exact ih
    · exact .cons (.inr hsame) ih

variable (marketRef fixtureHint homeTeam awayTeam) in
/-- **What matches in the same reply** is what matched. -/
theorem SameReply.matching (h : SameReply given reply reply') :
    ∃ mid, (matching given marketRef fixtureHint homeTeam awayTeam reply).Perm mid ∧
      List.Forall₂ (SameMarket given) mid
        (Venues.matching given marketRef fixtureHint homeTeam awayTeam reply') := by
  obtain ⟨mid, hperm, hall⟩ := h.markets
  rw [Venues.matching, Venues.matching]
  cases htest : refTest given marketRef fixtureHint homeTeam awayTeam with
  | error e => exact ⟨[], .nil, .nil⟩
  | ok test =>
    exact ⟨mid.filter test, hperm.filter test,
      filter_forall₂ hall fun market market' hsame => hsame.asked htest⟩

/-- A market of a reply can come first, with its outcomes in any order. -/
theorem exists_front
    (h : market ∈ matching given marketRef fixtureHint homeTeam awayTeam reply)
    (hsame : SameMarket given market market') :
    ∃ reply', SameReply given reply reply' ∧ ∃ rest,
      matching given marketRef fixtureHint homeTeam awayTeam reply' = market' :: rest ∧
        rest.length + 1 = (matching given marketRef fixtureHint homeTeam awayTeam reply).length := by
  rw [matching] at h
  split at h
  · next test htest =>
    obtain ⟨hmarket, hasked⟩ := List.mem_filter.mp h
    obtain ⟨raw, hraw, hdict⟩ := List.mem_filterMap.mp hmarket
    obtain rfl : raw = .dict market := by
      cases raw with
      | dict other => exact congrArg Value.dict (Option.some.inj hdict)
      | _ => cases hdict
    obtain ⟨rest, hperm⟩ := exists_perm_cons hraw
    have hreply : SameReply given reply (.dict market' :: rest) := by
      refine ⟨.dict market :: rest, hperm, .cons ?_ (List.forall₂_same.mpr fun _ _ => .inl rfl)⟩
      rcases hsame with rfl | hsame
      · exact .inl rfl
      · exact .inr ⟨market, market', rfl, rfl, hsame⟩
    refine ⟨.dict market' :: rest, hreply, (replyMarkets (.list rest)).filter test, ?_, ?_⟩
    · rw [matching, htest]
      exact List.filter_cons_of_pos ((hsame.asked htest).trans hasked)
    · rw [matching, htest]
      have hcons : (replyMarkets (.list (.dict market :: rest))).filter test =
          market :: (replyMarkets (.list rest)).filter test := List.filter_cons_of_pos hasked
      have hmarkets : (replyMarkets (.list reply)).Perm
          (replyMarkets (.list (.dict market :: rest))) := hperm.filterMap _
      have hlength := (hmarkets.filter test).length_eq
      exact (hlength.trans (congrArg List.length hcons)).symm
  · exact absurd h List.not_mem_nil

variable (drawMarket) in
/-- A clear market is read as no answer, or as one without a guess. -/
theorem Clear.parse (h : Clear given market) :
    Unavailable (parseGammaMarket given market drawMarket) ∨
      ∃ listing tokenIdYes tokenIdNo, Lists given market listing ∧
        OnePair given listing.pairs tokenIdYes tokenIdNo ∧
          parseGammaMarket given market drawMarket = .ok {
            tokenIdYes := tokenIdYes
            tokenIdNo := tokenIdNo
            drawMarket := drawMarket
            conditionId := listing.conditionId
            tickSize := listing.tickSize } := by
  by_cases hlists : ∃ listing, Lists given market listing
  · obtain ⟨listing, hlists⟩ := hlists
    rw [parse_lists hlists]
    rcases h.2 listing hlists with hyes | hno | ⟨yes, no, hone⟩
    · exact .inl (tokensMarket_none (.inl hyes))
    · exact .inl (tokensMarket_none (.inr hno))
    · exact .inr ⟨listing, yes, no, hlists, hone, tokensMarket_one hone⟩
  · exact .inl (parse_malformed h.1 fun listing hlisting => hlists ⟨listing, hlisting⟩)

/-- Where several markets match, an honest answer is a refusal. -/
theorem Honest.unavailable (h : Honest given marketRef fixtureHint homeTeam awayTeam reply)
    (hmany : 2 ≤ (matching given marketRef fixtureHint homeTeam awayTeam reply).length) :
    Unavailable (answer given marketRef fixtureHint homeTeam awayTeam reply) := by
  rcases h with hrefused | ⟨market, -, -, -, hone, -⟩
  · exact hrefused
  · rw [hone, List.length_singleton] at hmany
    omega

/-- Without a guess, the one market that matches is clear. -/
theorem NeverGuesses.clear (h : NeverGuesses given marketRef fixtureHint homeTeam awayTeam reply)
    (hone : matching given marketRef fixtureHint homeTeam awayTeam reply = [market]) :
    Clear given market := by
  obtain ⟨hhonest, hsame⟩ := h
  have hanswer := answer_of_one hone
  constructor
  · intro hover
    obtain ⟨e, he⟩ := parse_overflows (asksDraw marketRef) hover
    rcases hhonest with hrefused | ⟨_, _, _, _, _, _, _, hok⟩
    · rw [hanswer, he] at hrefused
      exact not_unavailable_other e hrefused
    · rw [hanswer, he] at hok
      exact nomatch hok
  · intro listing hlists
    by_cases hyes : NoToken given outcomeYesLabels listing.pairs
    · exact .inl hyes
    · by_cases hno : NoToken given outcomeNoLabels listing.pairs
      · exact .inr (.inl hno)
      · -- in some order of its outcomes the market is served, so it is in this one
        obtain ⟨market', hrearranged, hserved⟩ :=
          hlists.exists_served (asksDraw marketRef) hyes hno
        obtain ⟨reply', hreply, rest, hfront, hlength⟩ :=
          exists_front (hone ▸ List.mem_singleton_self market) (.inr hrearranged)
        obtain rfl : rest = [] := by
          rw [hone, List.length_singleton] at hlength
          exact List.length_eq_zero_iff.mp (by omega)
        have hanswer' := answer_of_one hfront
        rcases hhonest with hrefused | ⟨market₂, listing₂, yes, no, hone₂, hlists₂, hpair, -⟩
        · exact absurd (hanswer' ▸ (hsame reply' hreply).unavailable hrefused) hserved
        · obtain rfl := (List.cons.inj (hone.symm.trans hone₂)).1
          obtain rfl := hlists.unique hlists₂
          exact .inr (.inr ⟨yes, no, hpair⟩)

/-- Without a guess, each of the markets a slug matches is unusable, if they are several. -/
theorem NeverGuesses.unusable (h : NeverGuesses given marketRef fixtureHint homeTeam awayTeam reply)
    (hlegacy : isStructured marketRef = false)
    (hmany : 2 ≤ (matching given marketRef fixtureHint homeTeam awayTeam reply).length)
    (hmem : market ∈ matching given marketRef fixtureHint homeTeam awayTeam reply) :
    Unusable given market := by
  obtain ⟨hhonest, hsame⟩ := h
  have hrefused := hhonest.unavailable hmany
  -- whichever market comes first, with its outcomes in whatever order, is refused
  have hfirst : ∀ market', SameMarket given market market' →
      Unavailable (parseGammaMarket given market' (asksDraw marketRef)) := by
    intro market' hmarket
    obtain ⟨reply', hreply, rest, hfront, -⟩ := exists_front hmem hmarket
    exact answer_of_slug hlegacy hfront ▸ (hsame reply' hreply).unavailable hrefused
  constructor
  · intro hover
    obtain ⟨e, he⟩ := parse_overflows (asksDraw marketRef) hover
    exact not_unavailable_other e (he ▸ hfirst market (.inl rfl))
  · intro listing hlists
    by_contra hboth
    obtain ⟨hyes, hno⟩ := not_or.mp hboth
    obtain ⟨market', hrearranged, hserved⟩ :=
      hlists.exists_served (asksDraw marketRef) hyes hno
    exact hserved (hfirst market' (.inr hrearranged))

/-- On settled replies the resolver does not guess. -/
theorem Settled.neverGuesses (h : Settled given marketRef fixtureHint homeTeam awayTeam reply) :
    NeverGuesses given marketRef fixtureHint homeTeam awayTeam reply := by
  obtain ⟨hclear, hunusable⟩ := h
  have hsize : ∀ {reply'}, SameReply given reply reply' →
      (matching given marketRef fixtureHint homeTeam awayTeam reply').length =
        (matching given marketRef fixtureHint homeTeam awayTeam reply).length := by
    intro reply' hreply
    obtain ⟨mid, hperm, hall⟩ := hreply.matching marketRef fixtureHint homeTeam awayTeam
    rw [hperm.length_eq, hall.length_eq]
  by_cases hone : ∃ market, matching given marketRef fixtureHint homeTeam awayTeam reply = [market]
  · obtain ⟨market, hone⟩ := hone
    have hanswer := answer_of_one hone
    constructor
    · rcases (hclear market hone).parse (asksDraw marketRef) with
        hrefused | ⟨listing, yes, no, hlists, hpair, hok⟩
      · exact .inl (hanswer ▸ hrefused)
      · exact .inr ⟨market, listing, yes, no, hone, hlists, hpair, hanswer.trans hok⟩
    · intro reply' hreply
      obtain ⟨mid, hperm, hall⟩ := hreply.matching marketRef fixtureHint homeTeam awayTeam
      rw [hone] at hperm
      obtain rfl := List.perm_singleton.mp hperm.symm
      obtain ⟨market', rest, hsame, hnil, heq⟩ := List.forall₂_cons_left_iff.mp hall
      obtain rfl := List.forall₂_nil_left_iff.mp hnil
      rw [hanswer, answer_of_one heq]
      exact hsame.parse (hclear market hone)
  · by_cases hnot : isStructured marketRef = true ∨
        matching given marketRef fixtureHint homeTeam awayTeam reply = []
    · have hrefused := answer_of_not_one (fun market heq => hone ⟨market, heq⟩) hnot
      refine ⟨.inl hrefused, fun reply' hreply => .inl ⟨hrefused, answer_of_not_one ?_ ?_⟩⟩
      · intro market heq
        have hlength := hsize hreply
        rw [heq, List.length_singleton] at hlength
        exact hone (List.length_eq_one_iff.mp hlength.symm)
      · refine hnot.imp id fun hnil => ?_
        have hlength := hsize hreply
        rw [hnil, List.length_nil] at hlength
        exact List.length_eq_zero_iff.mp hlength
    · -- a slug that matches several markets
      obtain ⟨hform, hne⟩ := not_or.mp hnot
      have hlegacy : isStructured marketRef = false := by simpa using hform
      obtain ⟨first, rest, hfound⟩ := List.exists_cons_of_ne_nil hne
      have hmany : 2 ≤ (matching given marketRef fixtureHint homeTeam awayTeam reply).length := by
        rw [hfound, List.length_cons]
        have hrest : rest.length ≠ 0 := fun hzero => by
          rw [List.length_eq_zero_iff.mp hzero] at hfound
          exact hone ⟨first, hfound⟩
        omega
      have hall := hunusable hlegacy hmany
      have hrefused : Unavailable (answer given marketRef fixtureHint homeTeam awayTeam reply) := by
        rw [answer_of_slug hlegacy hfound]
        exact (hall first (hfound ▸ List.mem_cons_self)).parse
      refine ⟨.inl hrefused, fun reply' hreply => .inl ⟨hrefused, ?_⟩⟩
      obtain ⟨mid, hperm, hsame⟩ := hreply.matching marketRef fixtureHint homeTeam awayTeam
      have hne' : matching given marketRef fixtureHint homeTeam awayTeam reply' ≠ [] := by
        intro hnil
        have hlength := hsize hreply
        rw [hnil, List.length_nil] at hlength
        omega
      obtain ⟨first', rest', hfound'⟩ := List.exists_cons_of_ne_nil hne'
      rw [answer_of_slug hlegacy hfound']
      rw [hfound'] at hsame
      obtain ⟨market, mid', hmarket, -, rfl⟩ := List.forall₂_cons_right_iff.mp hsame
      have hmem := hperm.mem_iff.mpr List.mem_cons_self
      exact (hmarket.unusable (hall market hmem)).parse

/-- **The resolver does not guess** on the replies where the one market that matches is clear, and where
each of the markets a slug matches, if they are several, is unusable. -/
theorem neverGuesses_iff (given : ResolverGiven) (marketRef fixtureHint : String)
    (homeTeam awayTeam : Option String) (reply : List Value) :
    NeverGuesses given marketRef fixtureHint homeTeam awayTeam reply ↔
      Settled given marketRef fixtureHint homeTeam awayTeam reply := by
  constructor
  · intro h
    exact ⟨fun market hone => h.clear hone,
      fun hlegacy hmany market hmem => h.unusable hlegacy hmany hmem⟩
  · exact Settled.neverGuesses

/-! ## Replies that are guessed at -/

/-- A resolver whose regexes find nothing: a slug asks no question. -/
def plainGiven : ResolverGiven where
  format := ratioFormat
  valueText := fun _ => ""
  decodedText := fun _ => ""
  normalizeTeam := lower
  winTeam := fun _ => none
  asksDraw := fun _ => false
  ouLines := fun _ => []
  namesHalf := fun _ => false
  namesMatchup := fun _ => false

/-- A list, as a field of a market holds it. -/
def listText (items : List Decoded) : Value :=
  .str (String.ofList (Json.spaced ratioFormat (.arr items)))

/-- A market with the slug `s`, two outcomes and their tokens. -/
def slugMarket (conditionId : String) (tokenYes tokenNo : Decoded) : Market :=
  [("conditionId", .str conditionId), ("slug", .str "s"),
    ("outcomes", listText [.str "Yes", .str "No"]), ("clobTokenIds", listText [tokenYes, tokenNo]),
    ("orderPriceMinTickSize", .float (.fin (1 / 100)))]

theorem lists_slugMarket {conditionId : String} {tokenYes tokenNo : Decoded} (hnamed : conditionId ≠ "")
    (hyes : Json.Distinct tokenYes) (hno : Json.Distinct tokenNo) :
    Lists plainGiven (slugMarket conditionId tokenYes tokenNo)
      ⟨conditionId, [(.str "Yes", tokenYes), (.str "No", tokenNo)], .fin (1 / 100)⟩ := by
  have hloads : ∀ items : List Decoded, (∀ j ∈ items, Json.Distinct j) →
      Json.loads ratioFormat (String.ofList (Json.spaced ratioFormat (.arr items))).toList =
        some (.arr items) := by
    intro items hitems
    rw [String.toList_ofList]
    exact Json.loads_spaced ratioFormat (Json.distinctItems_iff.mpr hitems)
  have houtcomes : ∀ j ∈ ([.str "Yes", .str "No"] : List Decoded), Json.Distinct j := by
    intro j hj
    rcases List.mem_pair.mp hj with rfl | rfl <;> exact trivial
  have htokens : ∀ j ∈ [tokenYes, tokenNo], Json.Distinct j := by
    intro j hj
    rcases List.mem_pair.mp hj with rfl | rfl
    · exact hyes
    · exact hno
  exact ⟨rfl, hnamed, ⟨_, _, loadsOf_eq_some.mpr ⟨_, rfl, hloads _ houtcomes⟩,
    loadsOf_eq_some.mpr ⟨_, rfl, hloads _ htokens⟩, by simp, rfl, rfl⟩, _, rfl, rfl⟩

theorem parse_slugMarket {conditionId : String} {tokenYes tokenNo : Decoded} (drawRef : Bool)
    (hnamed : conditionId ≠ "") (hyes : Json.Distinct tokenYes) (hno : Json.Distinct tokenNo) :
    parseGammaMarket plainGiven (slugMarket conditionId tokenYes tokenNo) drawRef =
      tokensMarket conditionId (.fin (1 / 100)) drawRef (tokenYes, tokenNo) := by
  have hlabelYes : outcomeLabel plainGiven (.str "Yes") = "yes" := by decide +kernel
  have hlabelNo : outcomeLabel plainGiven (.str "No") = "no" := by decide +kernel
  rw [parse_lists (lists_slugMarket hnamed hyes hno), outcomeTokens, List.foldl_cons, List.foldl_cons,
    List.foldl_nil, hlabelYes, hlabelNo]
  rfl

/-- The markets of the slug `s`. -/
theorem matching_slug (markets : List Market) (h : ∀ market ∈ markets, market.lookup "slug" = some (.str "s")) :
    matching plainGiven "s" "s" none none (markets.map Value.dict) = markets := by
  have hlegacy : isStructured "s" = false := by decide +kernel
  have hmarkets : replyMarkets (.list (markets.map Value.dict)) = markets := by
    rw [replyMarkets, List.filterMap_map]
    exact List.filterMap_some
  rw [matching_legacy hlegacy, hmarkets]
  refine List.filter_eq_self.mpr fun market hmarket => ?_
  rw [hasSlug, h market hmarket]
  exact decide_eq_true rfl

/-- **Guesses**: two markets of one slug are answered by the first, in either order; a market whose
outcomes share a token is answered; and tokens that are no strings raise another exception. -/
theorem resolver_guesses :
    (∃ resolved resolved',
      answer plainGiven "s" "s" none none
        [.dict (slugMarket "a" (.str "1") (.str "2")), .dict (slugMarket "b" (.str "3") (.str "4"))] =
          .ok resolved ∧
      answer plainGiven "s" "s" none none
        [.dict (slugMarket "b" (.str "3") (.str "4")), .dict (slugMarket "a" (.str "1") (.str "2"))] =
          .ok resolved' ∧ resolved.conditionId = "a" ∧ resolved'.conditionId = "b") ∧
    (∃ resolved, answer plainGiven "s" "s" none none
        [.dict (slugMarket "a" (.str "1") (.str "1"))] = .ok resolved ∧
      resolved.tokenIdYes = "1" ∧ resolved.tokenIdNo = "1") ∧
    ∃ e, answer plainGiven "s" "s" none none [.dict (slugMarket "a" (.int 1) (.int 2))] =
      .error (.other e) := by
  have hlegacy : isStructured "s" = false := by decide +kernel
  have hfirst : ∀ {conditionId tokenYes tokenNo} (rest : List Market), conditionId ≠ "" →
      Json.Distinct tokenYes → Json.Distinct tokenNo →
        (∀ market ∈ rest, market.lookup "slug" = some (.str "s")) →
          answer plainGiven "s" "s" none none
            ((slugMarket conditionId tokenYes tokenNo :: rest).map Value.dict) =
              tokensMarket conditionId (.fin (1 / 100)) (Venues.asksDraw "s") (tokenYes, tokenNo) := by
    intro conditionId tokenYes tokenNo rest hnamed hyes hno hrest
    have hmatching := matching_slug (slugMarket conditionId tokenYes tokenNo :: rest)
      (List.forall_mem_cons.mpr ⟨rfl, hrest⟩)
    exact (answer_of_slug hlegacy hmatching).trans (parse_slugMarket _ hnamed hyes hno)
  refine ⟨⟨_, _, hfirst [slugMarket "b" (.str "3") (.str "4")] (by decide) trivial trivial ?_,
    hfirst [slugMarket "a" (.str "1") (.str "2")] (by decide) trivial trivial ?_, rfl, rfl⟩,
    ⟨_, hfirst [] (by decide) trivial trivial ?_, rfl, rfl⟩,
    ⟨_, hfirst [] (by decide) trivial trivial ?_⟩⟩
  · exact List.forall_mem_singleton.mpr rfl
  · exact List.forall_mem_singleton.mpr rfl
  · exact fun _ h => absurd h List.not_mem_nil
  · exact fun _ h => absurd h List.not_mem_nil

end Veridex.Venues
