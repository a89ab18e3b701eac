import Veridex.Runtime.ArenaFairness

/-!
# Fixtures in a comparison (`runtime/arena_comparison.py`)

The projector keeps its series by market and side, whatever the fixture, and a decision of the model's
contestant is told with the coordinate of the tick it is served at. Where no two fixtures observe one
market's side, and a call is answered on ticks of its own fixture, fixtures do not mix.

Results: `project_alike` (a projection depends on the sides it observes), `fixtures_apart`,
`fixtures_mixed` (two fixtures that share a market).
-/

namespace Veridex.Runtime

open Veridex.Py Veridex.Lib Veridex.Strategies Veridex.Law

/-! ## What a projection depends on -/

/-- The sides of a market that a projector observes. -/
def observedSides (closeQualityRequired : Bool) (market : String × Params) :
    List (String × String) :=
  if closeQualityRequired && Decoded.truthy ((market.2.lookup "suspended").getD .null) then []
  else match (market.2.lookup "stable_prob_bps").getD (.obj []) with
    | .obj probBps => probBps.filterMap fun side => match (Decoded.scalar side.2).toInt with
      | .ok _ => some (market.1, side.1)
      | .error _ => none
    | _ => []

/-- The sides of a state that a projector observes. -/
def observed (closeQualityRequired : Bool) (state : MarketState) : List (String × String) :=
  state.markets.flatMap (observedSides closeQualityRequired)

namespace ArenaSharedProjector

variable {lib : FloatLibrary} {c : Bool} {K : String × String → Prop} {p q r : ArenaSharedProjector}
  {state : MarketState} {market : String × Params} {ts : ℤ} {marketKey : String}
  {side : String × Decoded} {acc acc' : Option SharedProjection × ArenaSharedProjector}

/-- Two projectors of one configuration whose series agree on some sides. -/
structure AgreesOn (c : Bool) (K : String × String → Prop) (p q : ArenaSharedProjector) : Prop where
  alpha : p.ewmaSlopeAlpha = q.ewmaSlopeAlpha
  closeQuality : p.closeQualityRequired = c ∧ q.closeQualityRequired = c
  series : ∀ key, K key → p.logits key = q.logits key ∧ p.tsFirst key = q.tsFirst key

theorem AgreesOn.refl (p : ArenaSharedProjector) : AgreesOn p.closeQualityRequired K p p :=
  ⟨rfl, ⟨rfl, rfl⟩, fun _ _ => ⟨rfl, rfl⟩⟩

theorem AgreesOn.symm (h : AgreesOn c K p q) : AgreesOn c K q p where
  alpha := h.alpha.symm
  closeQuality := ⟨h.closeQuality.2, h.closeQuality.1⟩
  series key hkey := ⟨(h.series key hkey).1.symm, (h.series key hkey).2.symm⟩

/-- The same best side, and projectors that agree. -/
def Same (c : Bool) (K : String × String → Prop)
    (acc acc' : Option SharedProjection × ArenaSharedProjector) : Prop :=
  acc.1 = acc'.1 ∧ AgreesOn c K acc.2 acc'.2

/-- One observation more, of the same side. -/
theorem AgreesOn.observe (h : AgreesOn c K p q) (key : String × String) (series : List PyFloat)
    (tsFirst : ℤ) : AgreesOn c K
      { p with
        logits := Function.update p.logits key series
        tsFirst := Function.update p.tsFirst key (some tsFirst) }
      { q with
        logits := Function.update q.logits key series
        tsFirst := Function.update q.tsFirst key (some tsFirst) } where
  alpha := h.alpha
  closeQuality := h.closeQuality
  series other hother := by
    by_cases heq : other = key
    · subst heq
      simp
    · simpa [Function.update_of_ne heq] using h.series other hother

/-- One observation more, of another side. -/
theorem AgreesOn.observe_other (h : AgreesOn c K p q) {key : String × String} (hkey : ¬ K key)
    (series : List PyFloat) (tsFirst : ℤ) : AgreesOn c K p
      { q with
        logits := Function.update q.logits key series
        tsFirst := Function.update q.tsFirst key (some tsFirst) } where
  alpha := h.alpha
  closeQuality := h.closeQuality
  series other hother := by
    have heq : other ≠ key := fun heq => hkey (heq ▸ hother)
    simpa [Function.update_of_ne heq] using h.series other hother

theorem projectSide_alike
    (hkey : ∀ bps, (Decoded.scalar side.2).toInt = .ok bps → K (marketKey, side.1))
    (h : Same c K acc acc') : Alike (Same c K) (projectSide lib ts marketKey acc side)
      (projectSide lib ts marketKey acc' side) := by
  obtain ⟨best, p⟩ := acc
  obtain ⟨best', q⟩ := acc'
  obtain ⟨rfl, hagree⟩ : best = best' ∧ AgreesOn c K p q := h
  unfold projectSide
  cases hbps : (Decoded.scalar side.2).toInt with
  | error e =>
    simp only
    split_ifs
    · exact ⟨rfl, hagree⟩
    · exact rfl
  | ok bps =>
    obtain ⟨hlogits, htsFirst⟩ := hagree.series (marketKey, side.1) (hkey bps hbps)
    simp only [hlogits, htsFirst, hagree.alpha]
    refine alike_bind (alike_rfl _) ?_
    rintro x _ rfl
    refine alike_bind (alike_rfl _) ?_
    rintro snap _ rfl
    have hnext := hagree.observe (marketKey, side.1)
      (q.logits (marketKey, side.1) ++ [logit lib x]) ((q.tsFirst (marketKey, side.1)).getD ts)
    cases best with
    | none => exact ⟨rfl, rfl, hnext.closeQuality, hnext.series⟩
    | some best => exact ⟨rfl, rfl, hnext.closeQuality, hnext.series⟩

theorem projectSide_frame
    (hkey : ∀ bps, (Decoded.scalar side.2).toInt = .ok bps → ¬ K (marketKey, side.1))
    (h : AgreesOn c K p acc.2) (hside : projectSide lib ts marketKey acc side = .ok acc') :
    AgreesOn c K p acc'.2 := by
  obtain ⟨best, q⟩ := acc
  unfold projectSide at hside
  cases hbps : (Decoded.scalar side.2).toInt with
  | error e =>
    simp only [hbps] at hside
    split_ifs at hside
    · obtain rfl := Except.ok.inj hside
      exact h
  | ok bps =>
    simp only [hbps] at hside
    obtain ⟨x, -, hside⟩ := bind_eq_ok.mp hside
    obtain ⟨snap, -, hside⟩ := bind_eq_ok.mp hside
    cases best with
    | none =>
      obtain rfl := Except.ok.inj hside
      exact h.observe_other (hkey bps hbps) _ _
    | some best =>
      obtain rfl := Except.ok.inj hside
      exact h.observe_other (hkey bps hbps) _ _

/-- The sides of a market whose probabilities are a table, where the market is not passed over. -/
theorem mem_observedSides {probBps : Params} {bps : ℤ}
    (hopen : ¬ (c && Decoded.truthy ((market.2.lookup "suspended").getD .null)) = true)
    (hprobs : (market.2.lookup "stable_prob_bps").getD (.obj []) = .obj probBps)
    (hside : side ∈ probBps) (hbps : (Decoded.scalar side.2).toInt = .ok bps) :
    (market.1, side.1) ∈ observedSides c market := by
  simp only [observedSides, if_neg hopen, hprobs]
  exact List.mem_filterMap.mpr ⟨side, hside, by rw [hbps]⟩

theorem projectMarket_alike (hkeys : ∀ key ∈ observedSides c market, K key)
    (h : Same c K acc acc') :
    Alike (Same c K) (projectMarket lib ts acc market) (projectMarket lib ts acc' market) := by
  unfold projectMarket
  rw [h.2.closeQuality.1, h.2.closeQuality.2]
  split_ifs with hsuspended
  · exact h
  · split
    · next probBps hprobs =>
      refine foldlM_alike h fun side hside acc acc' h => projectSide_alike ?_ h
      exact fun bps hbps => hkeys _ (mem_observedSides hsuspended hprobs hside hbps)
    · exact h

theorem projectMarket_frame (hkeys : ∀ key ∈ observedSides c market, ¬ K key)
    (h : AgreesOn c K p acc.2) (hmarket : projectMarket lib ts acc market = .ok acc') :
    AgreesOn c K p acc'.2 := by
  unfold projectMarket at hmarket
  rw [h.closeQuality.2] at hmarket
  split_ifs at hmarket with hsuspended
  · obtain rfl := Except.ok.inj hmarket
    exact h
  · split at hmarket
    · next probBps hprobs =>
      refine foldlM_keeps (P := fun acc => AgreesOn c K p acc.2) h ?_ hmarket
      intro side hside acc acc' h hstep
      exact projectSide_frame
        (fun bps hbps => hkeys _ (mem_observedSides hsuspended hprobs hside hbps)) h hstep
    · obtain rfl := Except.ok.inj hmarket
      exact h

/-- **A projection depends on the sides it observes**, and leaves projectors that agree. -/
theorem project_alike (lib : FloatLibrary) (hkeys : ∀ key ∈ observed c state, K key) (h : AgreesOn c K p q) :
    Alike (Same c K) (p.project lib state) (q.project lib state) := by
  refine foldlM_alike ⟨rfl, h.alpha, h.closeQuality, h.series⟩ fun market hmarket acc acc' h => ?_
  exact projectMarket_alike (fun key hkey => hkeys key (List.mem_flatMap.mpr ⟨market, hmarket, hkey⟩)) h

/-- **A projection leaves the sides alone that it does not observe.** -/
theorem project_frame (hkeys : ∀ key ∈ observed c state, ¬ K key) (h : AgreesOn c K p q)
    {best : Option SharedProjection} (hproject : q.project lib state = .ok (best, r)) :
    AgreesOn c K p r := by
  unfold project at hproject
  have hcounted : AgreesOn c K p { q with callCount := q.callCount + 1 } :=
    ⟨h.alpha, h.closeQuality, h.series⟩
  have hkept : ∀ market ∈ state.markets, ∀ acc acc', AgreesOn c K p acc.2 →
      projectMarket lib state.ts acc market = .ok acc' → AgreesOn c K p acc'.2 :=
    fun market hmarket acc acc' h hstep => projectMarket_frame
      (fun key hkey => hkeys key (List.mem_flatMap.mpr ⟨market, hmarket, hkey⟩)) h hstep
  exact foldlM_keeps (P := fun acc => AgreesOn c K p acc.2) hcounted hkept hproject

/-! ## The projector of a fixture's own ticks -/

/-- The projector after some states. -/
def after (lib : FloatLibrary) (p : ArenaSharedProjector) (states : List MarketState) :
    Except PyExc ArenaSharedProjector :=
  states.foldlM (fun p state => do return (← p.project lib state).2) p

/-- The states of one fixture. -/
def own (fixtureId : ℤ) (states : List MarketState) : List MarketState :=
  states.filter fun state => state.fixtureId = fixtureId

/-- No two states of different fixtures observe one side of a market. -/
def SidesApart (c : Bool) (states : List MarketState) : Prop :=
  ∀ s ∈ states, ∀ t ∈ states, s.fixtureId ≠ t.fixtureId → ∀ key ∈ observed c s, key ∉ observed c t

/-- The sides that a fixture's states observe. -/
def SidesOf (c : Bool) (fixtureId : ℤ) (states : List MarketState) (key : String × String) : Prop :=
  ∃ s ∈ states, s.fixtureId = fixtureId ∧ key ∈ observed c s

/-- **After some states**, the projector of them all and that of one fixture's own agree on the sides
that fixture observes. -/
theorem after_own (fixtureId : ℤ) {tape : List MarketState} (hapart : SidesApart c tape) :
    ∀ {states : List MarketState} {p q r : ArenaSharedProjector}, (∀ s ∈ states, s ∈ tape) →
      AgreesOn c (SidesOf c fixtureId tape) p q → after lib p states = .ok r →
      ∃ r', after lib q (own fixtureId states) = .ok r' ∧
        AgreesOn c (SidesOf c fixtureId tape) r r' := by
  intro states
  induction states with
  | nil =>
    intro p q r _ h hafter
    obtain rfl := Except.ok.inj hafter
    exact ⟨q, rfl, h⟩
  | cons state states ih =>
    intro p q r hmem h hafter
    rw [after, List.foldlM_cons] at hafter
    obtain ⟨p', hp', hafter⟩ := bind_eq_ok.mp hafter
    obtain ⟨⟨best, p''⟩, hproject, hp'⟩ := bind_eq_ok.mp hp'
    obtain rfl := Except.ok.inj hp'
    have hrest : ∀ s ∈ states, s ∈ tape := fun s hs => hmem s (List.mem_cons_of_mem _ hs)
    by_cases hfixture : state.fixtureId = fixtureId
    · have hkeys : ∀ key ∈ observed c state, SidesOf c fixtureId tape key :=
        fun key hkey => ⟨state, hmem state List.mem_cons_self, hfixture, hkey⟩
      have halike := project_alike lib hkeys h
      rw [hproject] at halike
      cases hown : q.project lib state with
      | error e =>
        rw [hown] at halike
        exact halike.elim
      | ok projected =>
        rw [hown] at halike
        obtain ⟨r', hr', hagree⟩ := ih hrest halike.2 hafter
        refine ⟨r', ?_, hagree⟩
        rw [own, List.filter_cons_of_pos (by simpa using hfixture), after, List.foldlM_cons]
        exact bind_eq_ok.mpr ⟨projected.2, bind_eq_ok.mpr ⟨projected, hown, rfl⟩, hr'⟩
    · have hkeys : ∀ key ∈ observed c state, ¬ SidesOf c fixtureId tape key := by
        rintro key hkey ⟨s, hs, hsFixture, hkey'⟩
        exact hapart state (hmem state List.mem_cons_self) s hs (hsFixture ▸ hfixture) key hkey hkey'
      have hagree : AgreesOn c (SidesOf c fixtureId tape) p'' q :=
        (project_frame hkeys h.symm hproject).symm
      obtain ⟨r', hr', hagree'⟩ := ih hrest hagree hafter
      refine ⟨r', ?_, hagree'⟩
      rw [own, List.filter_cons_of_neg (by simpa using hfixture)]
      exact hr'

end ArenaSharedProjector

/-! ## The call in flight, and where it was launched -/

namespace Slot

variable {s s' : Slot RawOutput AgentAction} {reading : ℚ}

/-- The call in flight is found answered in time, some moments on. -/
def Answered (s : Slot RawOutput AgentAction) (reading : ℚ) (moments : ℕ) : Prop :=
  ∃ c raw, s.guard.call = some c ∧ c.handle.reports (s.moment + moments) = some (.returned raw) ∧
    c.cancelRequested = false ∧ reading - c.capturedAt ≤ s.guard.limit

/-- What a service does with a call: it is served a decision of when it returned in time and was not
cancelled; else it is done, or asked to cancel, or left. -/
theorem serviceCall_cases {g guard : InflightGuard RawOutput} {c : ActiveCall RawOutput}
    {ending : Option (Ending RawOutput)} {outcome : ServiceOutcome RawOutput} {cancels : Bool}
    (h : g.serviceCall c ending reading = (outcome, guard, cancels)) :
    (∃ raw, ending = some (.returned raw) ∧ c.cancelRequested = false ∧
      reading - c.capturedAt ≤ g.limit ∧
      outcome = .completedFresh c.call raw c.evidenceHash ∧ guard = { g with call := none }) ∨
    (∀ call raw evidenceHash, outcome ≠ .completedFresh call raw evidenceHash) ∧
      (guard = { g with call := none } ∨
        guard = { g with call := some { c with cancelRequested := true } } ∨ guard = g) := by
  unfold InflightGuard.serviceCall at h
  cases ending with
  | none =>
    simp only at h
    split_ifs at h
    · obtain ⟨rfl, hrest⟩ := Prod.mk.inj h
      obtain ⟨rfl, -⟩ := Prod.mk.inj hrest
      exact .inr ⟨by simp, .inr (.inl rfl)⟩
    · obtain ⟨rfl, hrest⟩ := Prod.mk.inj h
      obtain ⟨rfl, -⟩ := Prod.mk.inj hrest
      exact .inr ⟨by simp, .inr (.inr rfl)⟩
  | some ending =>
    cases hrequested : c.cancelRequested with
    | true =>
      simp only [hrequested, if_true] at h
      obtain ⟨rfl, hrest⟩ := Prod.mk.inj h
      obtain ⟨rfl, -⟩ := Prod.mk.inj hrest
      exact .inr ⟨by simp, .inl rfl⟩
    | false =>
      cases ending with
      | cancelled | raised _ =>
        simp only [hrequested] at h
        obtain ⟨rfl, hrest⟩ := Prod.mk.inj h
        obtain ⟨rfl, -⟩ := Prod.mk.inj hrest
        exact .inr ⟨by simp, .inl rfl⟩
      | returned raw =>
        simp only [hrequested, Bool.false_eq_true, if_false] at h
        split_ifs at h with hage
        · obtain ⟨rfl, hrest⟩ := Prod.mk.inj h
          obtain ⟨rfl, -⟩ := Prod.mk.inj hrest
          exact .inl ⟨raw, rfl, rfl, hage, rfl, rfl⟩
        · obtain ⟨rfl, hrest⟩ := Prod.mk.inj h
          obtain ⟨rfl, -⟩ := Prod.mk.inj hrest
          exact .inr ⟨by simp, .inl rfl⟩

/-- What a service leaves in the slot is the call that was there. -/
theorem service_keeps {outcome : ServiceOutcome RawOutput}
    (hserve : s.service reading = (outcome, s')) : s'.moment = s.moment ∧
      s'.guard.limit = s.guard.limit ∧ ∀ c', s'.guard.call = some c' → ∃ c,
        s.guard.call = some c ∧ c'.handle = c.handle ∧ c'.capturedAt = c.capturedAt ∧
        c'.evidenceHash = c.evidenceHash ∧ (c'.cancelRequested = false → c.cancelRequested = false) := by
  unfold service at hserve
  cases hc : s.guard.call with
  | none =>
    rw [hc] at hserve
    obtain ⟨-, rfl⟩ := Prod.mk.inj hserve
    exact ⟨rfl, rfl, fun c' hc' => nomatch hc.symm.trans hc'⟩
  | some c =>
    simp only [hc] at hserve
    generalize hcall : s.guard.serviceCall c (c.handle.reports s.moment) reading = served at hserve
    obtain ⟨outcome', guard, cancels⟩ := served
    obtain ⟨-, rfl⟩ := Prod.mk.inj hserve
    refine ⟨rfl, ?_⟩
    rcases serviceCall_cases hcall with ⟨raw, -, -, -, -, rfl⟩ | ⟨-, rfl | rfl | rfl⟩
    · exact ⟨rfl, fun c' hc' => nomatch hc'⟩
    · exact ⟨rfl, fun c' hc' => nomatch hc'⟩
    · refine ⟨rfl, fun c' hc' => ?_⟩
      obtain rfl := Option.some.inj hc'
      exact ⟨c, rfl, rfl, rfl, rfl, fun h => nomatch h⟩
    · refine ⟨rfl, fun c' hc' => ?_⟩
      obtain rfl := Option.some.inj (hc.symm.trans hc')
      exact ⟨c, rfl, rfl, rfl, rfl, id⟩

/-- A decision is served of a call that is found answered. -/
theorem answered_of_fresh {call : ℕ} {raw : RawOutput} {evidenceHash : String}
    (hserve : s.advance.service reading = (.completedFresh call raw evidenceHash, s')) :
    s.Answered reading 1 ∧ ∃ c, s.guard.call = some c ∧ c.evidenceHash = evidenceHash := by
  unfold service at hserve
  cases hc : s.advance.guard.call with
  | none =>
    rw [hc] at hserve
    exact nomatch (Prod.mk.inj hserve).1
  | some c =>
    simp only [hc] at hserve
    generalize hcall : s.advance.guard.serviceCall c (c.handle.reports s.advance.moment) reading =
      served at hserve
    obtain ⟨outcome', guard, cancels⟩ := served
    obtain ⟨rfl, -⟩ := Prod.mk.inj hserve
    rcases serviceCall_cases hcall with ⟨raw', hreports, hrequested, hage, hfresh, -⟩ | ⟨hother, -⟩
    · obtain ⟨-, -, rfl⟩ := ServiceOutcome.completedFresh.inj hfresh
      exact ⟨⟨c, raw', hc, hreports, hrequested, hage⟩, c, hc, rfl⟩
    · exact absurd rfl (hother call raw evidenceHash)

end Slot

namespace ArenaComparison

variable {setup : ArenaSetup} {o : Offered} {state : MarketState} {a a' b : ArenaComparison}
  {tape : List MarketState} {projector : ArenaSharedProjector} {result : Except PyExc Unit}

/-- The last launch that events tell. -/
def lastLaunch (events : List ArenaCheckpointEvent) : Option ArenaCheckpointEvent :=
  (events.filter fun e => e.contestant = .llmDrift && e.kind = .launched).getLast?

/-- A decision of the model's contestant is told on the fixture its call was launched on, with the
evidence it was launched with. -/
def OnLaunch (pre : List ArenaCheckpointEvent) (e : ArenaCheckpointEvent) : Prop :=
  e.contestant = .llmDrift → e.kind = .decision → ∃ launched, lastLaunch pre = some launched ∧
    launched.fixtureId = e.fixtureId ∧ launched.evidenceHash = e.evidenceHash

/-- The trail so far, and the launch of the call in flight. -/
structure Placed (a : ArenaComparison) : Prop where
  onLaunch : EachAfter OnLaunch a.events
  launched : ∀ c, a.slot.guard.call = some c → ∃ launched, lastLaunch a.events = some launched ∧
    launched.evidenceHash = c.evidenceHash

theorem placed_init : (init setup projector).Placed :=
  ⟨eachAfter_nil, fun _ hc => nomatch hc⟩

/-- Events that tell no launch leave the last one. -/
theorem lastLaunch_append {events more : List ArenaCheckpointEvent}
    (h : ∀ e ∈ more, e.contestant = .detDrift ∨ e.kind ≠ .launched) :
    lastLaunch (events ++ more) = lastLaunch events := by
  have hnone : (more.filter fun e => e.contestant = .llmDrift && e.kind = .launched) = [] := by
    refine List.filter_eq_nil_iff.mpr fun e he => ?_
    rcases h e he with hcontestant | hkind
    · simp [hcontestant]
    · simp [hkind]
  rw [lastLaunch, List.filter_append, hnone, List.append_nil]
  rfl

theorem Neutral.not_launched {e : ArenaCheckpointEvent} (h : Neutral e) :
    e.contestant = .detDrift ∨ e.kind ≠ .launched := by
  rcases h with h | h | h
  · exact .inl h
  · exact .inr (by simp [h])
  · exact .inr (by simp [h])

theorem Neutral.onLaunch {e : ArenaCheckpointEvent} (h : Neutral e) (pre : List ArenaCheckpointEvent) :
    OnLaunch pre e := by
  intro hcontestant hkind
  simp [Neutral, hcontestant, hkind] at h

/-- Neutral events, and a call that is still the one before. -/
theorem Placed.quiet (h : a.Placed) (events : List ArenaCheckpointEvent)
    (hevents : b.events = a.events ++ events) (hneutral : ∀ e ∈ events, Neutral e)
    (hcall : ∀ c', b.slot.guard.call = some c' → ∃ c, a.slot.guard.call = some c ∧
      c'.evidenceHash = c.evidenceHash) : b.Placed where
  onLaunch := by
    rw [hevents]
    exact eachAfter_append.mpr ⟨h.onLaunch,
      eachAfter_of_forall fun e he pre => (hneutral e he).onLaunch _⟩
  launched := by
    intro c' hc'
    obtain ⟨c, hc, heq⟩ := hcall c' hc'
    rw [hevents, lastLaunch_append fun e he => (hneutral e he).not_launched, heq]
    exact h.launched c hc

/-- A decision that is told on the fixture of the last launch. -/
theorem Placed.decided {served : Slot RawOutput AgentAction} {call : ℕ} {raw : RawOutput}
    {evidenceHash : String} (h : a.Placed)
    (hcall : ∃ c, a.slot.guard.call = some c ∧ c.evidenceHash = evidenceHash)
    (hfree : served.guard.call = none)
    (hfixture : (lastLaunch a.events).map (·.fixtureId) = some o.fixtureId) :
    (emitLlmDecision setup o call raw evidenceHash { a with slot := served }).Placed where
  onLaunch := by
    refine eachAfter_append.mpr ⟨h.onLaunch, eachAfter_singleton.mpr fun _ _ => ?_⟩
    obtain ⟨c, hc, rfl⟩ := hcall
    obtain ⟨launched, hlaunched, hevidence⟩ := h.launched c hc
    rw [hlaunched] at hfixture
    exact ⟨launched, by rw [List.append_nil, hlaunched], Option.some.inj hfixture, hevidence⟩
  launched := fun _ hc => nomatch hfree.symm.trans hc

/-- **The model's part of a tick** keeps decisions on their launches, where a call that is answered
was launched on this fixture. -/
theorem placed_stepLlm (hsound : LlmSound setup a) (h : a.Placed)
    (hfixture : a.slot.Answered a.clock 1 →
      (lastLaunch a.events).map (·.fixtureId) = some o.fixtureId)
    (hstep : a.stepLlm setup o = (result, a')) : a'.Placed := by
  obtain ⟨outcome, served, hserve, hcases⟩ := stepLlm_cases hsound.sound hstep
  obtain ⟨-, hleaves, -⟩ := Slot.sound_service (Slot.sound_advance hsound.sound) hserve
  obtain ⟨-, -, hkeeps⟩ := Slot.service_keeps hserve
  have hoffered : ∀ event ∈ a.offeredLlm setup o, Neutral event :=
    fun event hevent => .inr (.inl (offeredLlm_opportunity hevent))
  have hopened : (a.openLlm setup o).2.events = a.events ++ a.offeredLlm setup o := by
    rw [openLlm_eq]
  have hslot : (a.openLlm setup o).2.slot = a.slot := by rw [openLlm_eq]
  have hopen : (a.openLlm setup o).2.Placed :=
    h.quiet _ hopened hoffered fun c hc => ⟨c, by rwa [hslot] at hc, rfl⟩
  rcases hcases with ⟨call, raw, evidenceHash, rfl, -, rfl⟩ |
    ⟨snapshot, handle, rfl, -, -, -, rfl⟩ | ⟨skipped, slot, hskipped, hleft, rfl⟩
  · obtain ⟨hanswered, c, hc, hevidence⟩ := Slot.answered_of_fresh hserve
    refine hopen.decided ⟨c, by rw [hslot, hc], hevidence⟩ hleaves.1 ?_
    rw [hopened, lastLaunch_append fun e he => (hoffered e he).not_launched]
    exact hfixture hanswered
  · constructor
    · refine eachAfter_append.mpr ⟨hopen.onLaunch, eachAfter_singleton.mpr ?_⟩
      exact fun _ hkind => nomatch hkind
    · intro c hc
      obtain rfl := Option.some.inj hc
      refine ⟨o.event .llmDrift .launched snapshot.evidenceHash, ?_, rfl⟩
      rw [lastLaunch, List.filter_append]
      exact List.getLast?_concat
  · refine h.quiet (a.offeredLlm setup o ++ skipped) ?_ ?_ ?_
    · rw [hopened, List.append_assoc]
    · intro event hevent
      rcases List.mem_append.mp hevent with hevent | hevent
      · exact hoffered event hevent
      · exact .inr (.inr (hskipped event hevent).2)
    · intro c' hc'
      have hserved : served.guard.call = some c' := by
        rcases hleft with rfl | rfl
        · exact hc'
        · exact hc'
      obtain ⟨c, hc, -, -, hevidence, -⟩ := hkeeps c' hserved
      exact ⟨c, hc, hevidence⟩

/-- A tick keeps decisions on their launches, where a call that is answered at it was launched on its
fixture. -/
theorem placed_step (hsound : LlmSound setup a) (h : a.Placed)
    (hfixture : a.slot.Answered state.ts 1 →
      (lastLaunch a.events).map (·.fixtureId) = some state.fixtureId)
    (hstep : a.step setup state = (result, a')) : a'.Placed := by
  unfold step at hstep
  cases hproject : (a.record state).projector.project setup.lib state with
  | error e =>
    simp only [hproject] at hstep
    obtain ⟨-, rfl⟩ := Prod.mk.inj hstep
    exact ⟨h.onLaunch, h.launched⟩
  | ok projected =>
    obtain ⟨proj, projector'⟩ := projected
    simp only [hproject] at hstep
    generalize ho : (⟨state.ts, state.fixtureId, (a.record state).arenaTickSeq, proj⟩ : Offered) = o
      at hstep
    obtain ⟨hslot, hclock, -, events, hevents, hdet⟩ := stepDet_frame setup o
      { a.record state with projector := projector' }
    have hneutral : ∀ e ∈ events, Neutral e := fun e he => .inl (hdet e he)
    refine placed_stepLlm (llmSound_stepDet hsound) ?_ ?_ hstep
    · exact h.quiet _ hevents hneutral fun c hc => ⟨c, by rw [hslot] at hc; exact hc, rfl⟩
    · rw [hslot, hclock, hevents, lastLaunch_append fun e he => (hneutral e he).not_launched, ← ho]
      exact hfixture

/-! ## Ticks and the drain -/

theorem runTicks_append : ∀ {pre rest : List MarketState} {a b : ArenaComparison},
    runTicks setup pre a = (.ok (), b) → runTicks setup (pre ++ rest) a = runTicks setup rest b := by
  intro pre
  induction pre with
  | nil =>
    intro rest a b h
    obtain ⟨-, rfl⟩ := Prod.mk.inj h
    rfl
  | cons state pre ih =>
    intro rest a b h
    cases hstep : a.step setup state with
    | mk stepped c =>
      simp only [runTicks, List.cons_append, hstep] at h ⊢
      cases stepped with
      | error e => cases (Prod.mk.inj h).1
      | ok _ => exact ih h

/-- A tick that returns leaves the projector that projected it. -/
theorem step_projector (hsound : LlmSound setup a) (hstep : a.step setup state = (.ok (), a')) :
    ∃ proj, a.projector.project setup.lib state = .ok (proj, a'.projector) := by
  obtain ⟨b, hoffer, hblind⟩ := step_offers hsound hstep
  have hprojector : b.projector = a'.projector :=
    (congrArg ArenaComparison.projector hblind :)
  unfold offer at hoffer
  cases hproject : (a.record state).projector.project setup.lib state with
  | error e =>
    rw [hproject] at hoffer
    exact nomatch hoffer
  | ok projected =>
    obtain ⟨proj, projector'⟩ := projected
    rw [hproject] at hoffer
    refine ⟨proj, hproject.trans ?_⟩
    obtain rfl := Except.ok.inj hoffer
    have hsame : ∀ o, (({ a.record state with projector := projector' }.stepDet setup o).openLlm
        setup o).2.projector = projector' := by
      intro o
      rw [openLlm_eq]
      exact stepDet_projector
    rw [← hprojector, hsame]

theorem runTicks_projector : ∀ {pre : List MarketState} {a b : ArenaComparison}, LlmSound setup a →
    runTicks setup pre a = (.ok (), b) → a.projector.after setup.lib pre = .ok b.projector := by
  intro pre
  induction pre with
  | nil =>
    intro a b _ h
    obtain ⟨-, rfl⟩ := Prod.mk.inj h
    rfl
  | cons state pre ih =>
    intro a b hsound h
    cases hstep : a.step setup state with
    | mk stepped c =>
      simp only [runTicks, hstep] at h
      cases stepped with
      | error e => cases (Prod.mk.inj h).1
      | ok _ =>
        obtain ⟨proj, hproject⟩ := step_projector hsound hstep
        rw [ArenaSharedProjector.after, List.foldlM_cons]
        exact bind_eq_ok.mpr ⟨c.projector, bind_eq_ok.mpr ⟨_, hproject, rfl⟩,
          ih (llmSound_step hsound hstep) h⟩

/-- A comparison that does not mix fixtures: no two of them observe one side of a market, and a call
that is found answered, at a tick or in the drain, was launched on the fixture of that tick. -/
structure Unmixed (setup : ArenaSetup) (projector : ArenaSharedProjector) (tape : List MarketState) :
    Prop where
  sides : ArenaSharedProjector.SidesApart projector.closeQualityRequired tape
  ticks : ∀ pre state post a, tape = pre ++ state :: post →
    runTicks setup pre (init setup projector) = (.ok (), a) → a.slot.Answered state.ts 1 →
    (lastLaunch a.events).map (·.fixtureId) = some state.fixtureId
  drained : ∀ a yields, runTicks setup tape (init setup projector) = (.ok (), a) →
    yields < maxYields → a.slot.Answered a.clock (yields + 1) →
    (lastLaunch a.events).map (·.fixtureId) = some a.drainTick.fixtureId

/-- The ticks of such a comparison keep decisions on their launches. -/
theorem placed_runTicks (hunmixed : Unmixed setup projector tape) :
    ∀ {rest : List MarketState} (pre : List MarketState) {a a' : ArenaComparison}, tape = pre ++ rest →
      runTicks setup pre (init setup projector) = (.ok (), a) → LlmSound setup a → a.Placed →
      runTicks setup rest a = (result, a') → a'.Placed := by
  intro rest
  induction rest with
  | nil =>
    intro pre a a' _ _ _ h hrun
    obtain ⟨-, rfl⟩ := Prod.mk.inj hrun
    exact h
  | cons state rest ih =>
    intro pre a a' htape hpre hsound h hrun
    cases hstep : a.step setup state with
    | mk stepped b =>
      have hb := placed_step hsound h (hunmixed.ticks pre state rest a htape hpre) hstep
      simp only [runTicks, hstep] at hrun
      cases stepped with
      | error e =>
        obtain ⟨-, rfl⟩ := Prod.mk.inj hrun
        exact hb
      | ok _ =>
        have hnext : runTicks setup (pre ++ [state]) (init setup projector) = (.ok (), b) := by
          rw [runTicks_append hpre]
          simp only [runTicks, hstep]
        exact ih _ (by simp [htape]) hnext (llmSound_step hsound hstep) hb hrun

/-- The arena after some services of phase 1 that served no decision. -/
structure Waited (b : ArenaComparison) (services : ℕ) (a : ArenaComparison) : Prop where
  events : a.events = b.events
  clock : a.clock = b.clock
  moment : a.slot.moment = b.slot.moment + services
  limit : a.slot.guard.limit = b.slot.guard.limit
  call : ∀ c', a.slot.guard.call = some c' → ∃ c, b.slot.guard.call = some c ∧
    c'.handle = c.handle ∧ c'.capturedAt = c.capturedAt ∧ c'.evidenceHash = c.evidenceHash ∧
    (c'.cancelRequested = false → c.cancelRequested = false)

theorem Waited.placed {services : ℕ} (h : Waited b services a) (hb : b.Placed) : a.Placed := by
  refine hb.quiet [] (by rw [h.events, List.append_nil]) (by simp) fun c' hc' => ?_
  obtain ⟨c, hc, -, -, hevidence, -⟩ := h.call c' hc'
  exact ⟨c, hc, hevidence⟩

theorem Waited.served {services : ℕ} {outcome : ServiceOutcome RawOutput}
    {served : Slot RawOutput AgentAction} (h : Waited b services a)
    (hserve : a.slot.advance.service a.clock = (outcome, served)) :
    Waited b (services + 1) { a with slot := served } := by
  obtain ⟨hmoment, hlimit, hkeeps⟩ := Slot.service_keeps hserve
  refine ⟨h.events, h.clock, ?_, hlimit.trans h.limit, ?_⟩
  · rw [hmoment, Slot.advance_moment, h.moment, Nat.add_assoc]
  · intro c'' hc''
    obtain ⟨c', hc', hhandle', hcaptured', hevidence', hrequested'⟩ := hkeeps c'' hc''
    obtain ⟨c, hc, hhandle, hcaptured, hevidence, hrequested⟩ := h.call c' hc'
    exact ⟨c, hc, hhandle'.trans hhandle, hcaptured'.trans hcaptured, hevidence'.trans hevidence,
      fun h => hrequested (hrequested' h)⟩

/-- A call that is found answered after some services was to be found so from the start. -/
theorem Waited.answered {services : ℕ} (h : Waited b services a)
    (hanswered : a.slot.Answered a.clock 1) : b.slot.Answered b.clock (services + 1) := by
  obtain ⟨c', raw, hc', hreports, hrequested, hage⟩ := hanswered
  obtain ⟨c, hc, hhandle, hcaptured, -, hkeep⟩ := h.call c' hc'
  rw [h.moment, Nat.add_assoc, hhandle] at hreports
  rw [h.clock, h.limit, hcaptured] at hage
  exact ⟨c, raw, hc, hreports, hkeep hrequested, hage⟩

/-- Phase 1 keeps decisions on their launches. -/
theorem placed_drainPhase1 (hb : b.Placed)
    (hfixture : ∀ yields, yields < maxYields → b.slot.Answered b.clock (yields + 1) →
      (lastLaunch b.events).map (·.fixtureId) = some o.fixtureId) :
    ∀ {yields services : ℕ} {a : ArenaComparison}, services + yields ≤ maxYields →
      LlmSound setup a → Waited b services a → (drainPhase1 setup o yields a).2.Placed := by
  intro yields
  induction yields with
  | zero => exact fun _ _ hwaited => hwaited.placed hb
  | succ yields ih =>
    intro services a hyields hsound hwaited
    generalize hserve : a.slot.advance.service a.clock = served
    obtain ⟨outcome, served⟩ := served
    have hnext := hwaited.served hserve
    have hsound' := llmSound_drains.quiet _ _ _ hsound hserve
    obtain ⟨-, hleaves, -⟩ := Slot.sound_service (Slot.sound_advance hsound.sound) hserve
    simp only [drainPhase1, service, hserve]
    split
    · next call raw evidenceHash =>
      obtain ⟨hanswered, hcall⟩ := Slot.answered_of_fresh hserve
      refine (hwaited.placed hb).decided hcall hleaves.1 ?_
      rw [hwaited.events]
      exact hfixture services (by omega) (hwaited.answered hanswered)
    · exact hnext.placed hb
    · exact hnext.placed hb
    · exact hnext.placed hb
    · split_ifs
      · exact hnext.placed hb
      · exact ih (by omega) hsound' hnext

/-- Phase 2 tells nothing. -/
theorem drainPhase2_quiet : ∀ (yields : ℕ) {services : ℕ} {a : ArenaComparison}, Waited b services a →
    ∃ services, Waited b services (drainPhase2 yields a).2 := by
  intro yields
  induction yields with
  | zero => exact fun h => ⟨_, h⟩
  | succ yields ih =>
    intro services a h
    generalize hserve : a.slot.advance.service a.clock = served
    obtain ⟨outcome, served⟩ := served
    have hnext := h.served hserve
    simp only [drainPhase2, service, hserve]
    split
    · exact ⟨_, hnext⟩
    · exact ⟨_, hnext⟩
    · exact ⟨_, hnext⟩
    · split_ifs
      · exact ⟨_, hnext⟩
      · exact ih hnext

theorem waited_refl (b : ArenaComparison) : Waited b 0 b :=
  ⟨rfl, rfl, rfl, rfl, fun c hc => ⟨c, hc, rfl, rfl, rfl, id⟩⟩

/-- **The drain keeps decisions on their launches.** -/
theorem placed_drain (hunmixed : Unmixed setup projector tape)
    (hticks : runTicks setup tape (init setup projector) = (.ok (), b)) (hb : b.Placed)
    (hdrain : b.drain setup = (result, a)) : a.Placed := by
  have hphase1 : (drainPhase1 setup b.drainTick maxYields b).2.Placed :=
    placed_drainPhase1 hb (fun yields hyields => hunmixed.drained b yields hticks hyields)
      (by omega) (llmSound_runTicks hticks) (waited_refl b)
  rcases drain_cases hdrain with ⟨-, rfl⟩ | ⟨-, hfirst⟩ | ⟨c, reading, done, hfirst, hsecond, -⟩
  · exact hb
  · rwa [hfirst] at hphase1
  · rw [hfirst] at hphase1
    have hc : ({ c with clock := reading } : ArenaComparison).Placed :=
      ⟨hphase1.onLaunch, hphase1.launched⟩
    obtain ⟨services, hwaited⟩ := drainPhase2_quiet maxYields
      (waited_refl { c with clock := reading })
    rw [hsecond] at hwaited
    exact hwaited.placed hc

/-! ## A tick of another fixture -/

/-- A tick without markets. -/
def bareTick (fixtureId ts : ℤ) : MarketState := ⟨fixtureId, 0, ts, 0, [], [], trivial, trivial⟩

/-- What a tick of one side observes. -/
theorem project_counts {lib : FloatLibrary} {p p' : ArenaSharedProjector} {fixtureId ts : ℤ}
    {best : Option SharedProjection}
    (h : p.project lib (arenaTick fixtureId ts) = .ok (best, p')) :
    (∃ proj, best = some proj ∧
      proj.snapshot.tickCount = (p.logits ("1X2", "home")).length + 1) ∧
    (p'.logits ("1X2", "home")).length = (p.logits ("1X2", "home")).length + 1 := by
  have hside : projectSide lib ts "1X2" (none, { p with callCount := p.callCount + 1 })
      ("home", .int 6000) = .ok (best, p') := by
    simp only [ArenaSharedProjector.project, arenaTick, List.foldlM_cons, List.foldlM_nil,
      projectMarket, home_open, home_probs, Option.getD_none, Decoded.truthy, Bool.and_false,
      Option.getD_some] at h
    obtain ⟨acc, hacc, h⟩ := bind_eq_ok.mp h
    obtain rfl := Except.ok.inj h
    obtain ⟨acc, hacc, h⟩ := bind_eq_ok.mp hacc
    obtain rfl := Except.ok.inj h
    exact hacc
  simp only [projectSide, Decoded.scalar, Value.toInt] at hside
  obtain ⟨x, -, hside⟩ := bind_eq_ok.mp hside
  obtain ⟨snap, hsnap, hside⟩ := bind_eq_ok.mp hside
  obtain ⟨rfl, rfl⟩ := Prod.mk.inj (Except.ok.inj hside)
  refine ⟨⟨_, rfl, ?_⟩, ?_⟩
  · rw [(driftFeatures_ok hsnap).1]
    simp
  · simp

/-- A tick without markets, at which a call is found done: the slot is freed, and in time its decision
is told with the tick's coordinate. -/
theorem bareTick_done (setup : ArenaSetup) (fixtureId ts : ℤ) {call : ℕ} {raw : RawOutput} {evidenceHash : String}
    {captured : ℚ}
    (hcall : a.slot.guard.call = some ⟨call, .done (.returned raw), evidenceHash, captured, false⟩) :
    ∃ b, a.step setup (bareTick fixtureId ts) = (.ok (), b) ∧ b.slot.guard.call = none ∧
      (ts - captured ≤ a.slot.guard.limit → b.events = a.events ++
        [(⟨ts, fixtureId, a.arenaTickSeq + 1, none⟩ : Offered).decision .llmDrift evidenceHash
          (decisionOf setup.lib raw)]) := by
  generalize ho : (⟨ts, fixtureId, a.arenaTickSeq + 1, none⟩ : Offered) = o
  obtain ⟨hslot, hclock, -⟩ := stepDet_frame setup o
    { a.record (bareTick fixtureId ts) with
      projector := { a.projector with callCount := a.projector.callCount + 1 } }
  obtain ⟨action, hevents, -⟩ := stepDet_offers setup o
    { a.record (bareTick fixtureId ts) with
      projector := { a.projector with callCount := a.projector.callCount + 1 } }
  have hstep : a.step setup (bareTick fixtureId ts) = stepLlm setup o (stepDet setup o
      { a.record (bareTick fixtureId ts) with
        projector := { a.projector with callCount := a.projector.callCount + 1 } }) := by
    rw [← ho]
    rfl
  rw [hstep]
  generalize stepDet setup o _ = c at hslot hclock hevents ⊢
  have hquiet : (c.openLlm setup o).2.events = a.events := by
    have hdet : ∀ d : ArenaComparison, offeredDet setup o d action = [] := by
      intro d
      rw [offeredDet, ← ho]
      split
      · next hproj => exact nomatch hproj
      · rfl
    have hllm : c.offeredLlm setup o = [] := by
      rw [offeredLlm, ← ho]
      split
      · next hsnapshot => exact nomatch hsnapshot
      · rfl
    rw [openLlm_eq, hllm, List.append_nil, hevents, hdet, List.append_nil]
    rfl
  have hopen : (c.openLlm setup o).2.slot = a.slot ∧ (c.openLlm setup o).2.clock = ts := by
    rw [openLlm_eq]
    exact ⟨hslot, hclock⟩
  have hservice : (c.openLlm setup o).2.service = (if ts - captured ≤ a.slot.guard.limit then
      .completedFresh call raw evidenceHash else .completedStale evidenceHash,
      { (c.openLlm setup o).2 with slot := { a.slot.advance with
        guard := { a.slot.guard with call := none }
        history := a.slot.history ++ [.observed call (some (.returned raw)) (ts - captured)] } }) := by
    by_cases hage : ts - captured ≤ a.slot.guard.limit <;>
      simp [service, hopen, Slot.service, hcall, CallHandle.done, InflightGuard.serviceCall, hage,
        Slot.advance]
  unfold stepLlm
  by_cases hage : ts - captured ≤ a.slot.guard.limit
  · rw [if_pos hage] at hservice
    simp only [hservice]
    refine ⟨_, rfl, rfl, fun _ => ?_⟩
    exact congrArg (· ++ [o.decision .llmDrift evidenceHash (decisionOf setup.lib raw)]) hquiet
  · rw [if_neg hage] at hservice
    simp only [hservice]
    exact ⟨_, rfl, rfl, fun h => absurd h hage⟩

end ArenaComparison

open ArenaComparison in
/-- Fixtures that do not mix: the projection of each tick is that of its fixture's own ticks so far,
and a decision of the model's contestant is told on the fixture its call was launched on. -/
structure FixturesApart (setup : ArenaSetup) (projector : ArenaSharedProjector)
    (tape : List MarketState) : Prop where
  projected : ∀ pre state post a, tape = pre ++ state :: post →
    runTicks setup pre (init setup projector) = (.ok (), a) → ∃ own,
      projector.after setup.lib (ArenaSharedProjector.own state.fixtureId pre) = .ok own ∧
      Alike (fun x y => x.1 = y.1) (a.projector.project setup.lib state)
        (own.project setup.lib state)
  told : ∀ result a, runArenaComparison setup projector tape = (result, a) →
    EachAfter OnLaunch a.events

open ArenaComparison in
/-- **Fixtures do not mix** in a comparison whose fixtures observe no side in common and whose calls
are found answered on ticks of the fixture they were launched on. -/
theorem fixtures_apart {setup : ArenaSetup} {projector : ArenaSharedProjector}
    {tape : List MarketState} (h : Unmixed setup projector tape) :
    FixturesApart setup projector tape where
  projected := by
    intro pre state post a htape hpre
    have hprojector := runTicks_projector llmSound_init hpre
    have hmem : ∀ s ∈ pre, s ∈ tape := fun s hs => by
      rw [htape]
      exact List.mem_append_left _ hs
    obtain ⟨own, hown, hagree⟩ := ArenaSharedProjector.after_own state.fixtureId
      h.sides hmem (ArenaSharedProjector.AgreesOn.refl projector) hprojector
    refine ⟨own, hown, ?_⟩
    have hkeys : ∀ key ∈ observed projector.closeQualityRequired state,
        ArenaSharedProjector.SidesOf projector.closeQualityRequired state.fixtureId tape key :=
      fun key hkey => ⟨state, by simp [htape], rfl, hkey⟩
    have halike := ArenaSharedProjector.project_alike setup.lib hkeys hagree
    exact alike_imp (fun _ _ h => h.1) halike
  told := by
    intro result a hrun
    have hticks : ∀ {result b}, runTicks setup tape (init setup projector) = (result, b) →
        b.Placed := fun hb => placed_runTicks h [] rfl rfl llmSound_init placed_init hb
    rcases run_cases hrun with ⟨hb, -⟩ | ⟨b, hb, hdrain⟩
    · exact (hticks hb).onLaunch
    · exact (placed_drain h hb (hticks hb) hdrain).onLaunch

open ArenaComparison in
/-- The tick of a fixture and one of another that has no markets, a minute later: the call of the first
is found answered too late, at the second. -/
def apartTape : List MarketState := [arenaTick 7 100, bareTick 8 160]

open ArenaComparison in
/-- Two fixtures that do not mix. -/
theorem fixtures_apart_late : FixturesApart (answeringSetup .other) {} apartTape := by
  obtain ⟨a, evidenceHash, hfirst, hguard, hclock, -⟩ := oneTick_step .other
  have hcall : a.slot.guard.call =
      some ⟨0, .done (.returned .other), evidenceHash, 100, false⟩ := by rw [hguard]
  obtain ⟨b, hsecond, hfree, -⟩ := bareTick_done (answeringSetup .other) 8 160 hcall
  refine fixtures_apart ⟨?_, ?_, ?_⟩
  · intro s hs t ht hne key hkey
    rcases List.mem_pair.mp hs with rfl | rfl
    · rcases List.mem_pair.mp ht with rfl | rfl
      · exact absurd rfl hne
      · exact List.not_mem_nil
    · cases hkey
  · intro pre state post c htape hpre hanswered
    cases pre with
    | nil =>
      obtain ⟨-, rfl⟩ := Prod.mk.inj hpre
      obtain ⟨c, raw, hc, -⟩ := hanswered
      cases hc
    | cons first pre =>
      obtain ⟨rfl, hrest⟩ := List.cons.inj htape
      cases pre with
      | nil =>
        obtain ⟨rfl, -⟩ := List.cons.inj hrest
        simp only [runTicks, hfirst] at hpre
        obtain ⟨-, rfl⟩ := Prod.mk.inj hpre
        -- the call is a minute old
        obtain ⟨c, raw, hc, -, -, hage⟩ := hanswered
        obtain rfl := Option.some.inj (hcall.symm.trans hc)
        rw [hguard] at hage
        norm_num [bareTick] at hage
      | cons second pre => simp at hrest
  · intro c yields hticks _ hanswered
    simp only [apartTape, runTicks, hfirst, hsecond] at hticks
    obtain ⟨-, rfl⟩ := Prod.mk.inj hticks
    obtain ⟨call, raw, hc, -⟩ := hanswered
    cases hfree.symm.trans hc

open ArenaComparison in
/-- **Fixtures that mix.** Two fixtures that share a market are projected as one series, and a call of
one fixture that is answered at a tick of the other is told as the other's. -/
theorem fixtures_mixed :
    ¬ FixturesApart (answeringSetup .other) {} [arenaTick 7 100, arenaTick 8 120] ∧
    ¬ FixturesApart (answeringSetup .other) {} [arenaTick 7 100, bareTick 8 120] := by
  obtain ⟨a, evidenceHash, hfirst, hguard, hclock, -, -, -, hevents⟩ := oneTick_step .other
  constructor
  · intro h
    have hticks : runTicks (answeringSetup .other) [arenaTick 7 100]
        (init (answeringSetup .other) {}) = (.ok (), a) := by simp only [runTicks, hfirst]
    obtain ⟨own, hown, halike⟩ := h.projected [arenaTick 7 100] (arenaTick 8 120) [] a rfl hticks
    obtain rfl : ({} : ArenaSharedProjector) = own := Except.ok.inj hown
    obtain ⟨proj, hproject⟩ := step_projector llmSound_init hfirst
    obtain ⟨-, hlogits⟩ := project_counts hproject
    obtain ⟨proj', projector', hfresh, -⟩ := project_arenaTick 8 120
    obtain ⟨⟨mine, hmine, hone⟩, -⟩ := project_counts hfresh
    obtain rfl := Option.some.inj hmine
    rw [show (answeringSetup .other).lib = plainLibrary from rfl, hfresh] at halike
    cases hmixed : a.projector.project plainLibrary (arenaTick 8 120) with
    | error e =>
      rw [hmixed] at halike
      exact halike
    | ok projected =>
      obtain ⟨best, p'⟩ := projected
      rw [hmixed] at halike
      obtain ⟨⟨theirs, rfl, htwo⟩, -⟩ := project_counts hmixed
      obtain rfl : theirs = proj' := Option.some.inj halike
      rw [hone, hlogits] at htwo
      exact absurd htwo (by decide)
  · intro h
    have hcall : a.slot.guard.call =
        some ⟨0, .done (.returned .other), evidenceHash, 100, false⟩ := by rw [hguard]
    obtain ⟨b, hsecond, hfree, htold⟩ := bareTick_done (answeringSetup .other) 8 120 hcall
    have hdecided := htold (by rw [hguard]; norm_num)
    have hrun : runArenaComparison (answeringSetup .other) {} [arenaTick 7 100, bareTick 8 120] =
        (.ok (), b) := by
      simp only [runArenaComparison, runTicks, hfirst, hsecond]
      simp [drain, InflightGuard.busy, hfree]
    obtain ⟨launched, hlast, hfixture, -⟩ := h.told _ b hrun a.events _ [] hdecided rfl rfl
    rw [hevents] at hlast
    obtain rfl := Option.some.inj hlast
    have hsame : (7 : ℤ) = 8 := hfixture
    exact absurd hsame (by decide)

end Veridex.Runtime
