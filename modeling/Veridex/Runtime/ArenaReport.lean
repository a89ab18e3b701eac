import Veridex.Runtime.ArenaRuns

/-!
# The report of a comparison (`runtime/arena_comparison.py`)

The report is assembled from the audit trail. A decision counts as scoreable when the law finds it
valid on its entry state and its market's close in its own fixture; asking the law may raise, and then
the report does.

Results: `report_ok` (when a report is assembled), `report_tells` (what one says of the trail).
-/

namespace Veridex.Runtime

open Veridex.Py Veridex.Lib Veridex.Strategies Veridex.Law

/-- A contestant's row of the report. -/
structure ContestantRow where
  actions : ℕ
  waits : ℕ
  scoreableDecisions : ℕ
  eligibleCheckpoints : ℕ

/-- `clustered_uncertainty`, without its note. -/
structure ClusteredUncertainty where
  scoreableDecisions : ℕ
  distinctMarkets : ℕ
  distinctCheckpoints : ℕ

/-- `ArenaComparisonReport`. -/
structure ArenaComparisonReport where
  identicalOpportunities : Bool
  eligibleCheckpoints : ℕ
  fixtureCount : ℕ
  contestants : List (Contestant × ContestantRow)
  scoreableDecisions : ℕ
  clusteredUncertainty : ClusteredUncertainty
  sharedCheckpoints : List (ℤ × String)
  notes : List String

/-- `_is_non_wait`. -/
def ArenaCheckpointEvent.isNonWait (e : ArenaCheckpointEvent) : Bool :=
  e.kind = .decision && e.actionType ≠ some .wait

/-- The action an event tells. -/
def ArenaCheckpointEvent.action (e : ArenaCheckpointEvent) : AgentAction where
  type := e.actionType.getD .wait
  params := Json.sortedFields [("market_key", e.marketKey), ("side", e.side)]
  canonical := Json.canonical_sortedFields _

namespace ArenaComparison

/-- `opportunities`. -/
def opportunities (a : ArenaComparison) (contestant : Contestant) : List (ℤ × String) :=
  (a.events.filter fun e => e.contestant = contestant && e.kind = .opportunity).map
    fun e => (e.checkpointTs, e.evidenceHash)

/-- `_closing_by_market`: the close of a market in a fixture. -/
def closingByMarket (a : ArenaComparison) (fixtureId : ℤ) : String → Option MarketState :=
  closingSnapshots (a.marketstates.filter fun state => state.fixtureId = fixtureId)

/-- The close of the market an event names. -/
def closingOf (a : ArenaComparison) (e : ArenaCheckpointEvent) :
    Except PyExc (Option MarketState) :=
  match e.marketKey with
  | .null => .ok none
  | key => return (← key.key).bind (a.closingByMarket e.fixtureId)

/-- `_is_scoreable`. -/
def isScoreable (format : Json.FloatFormat PyFloat) (a : ArenaComparison)
    (e : ArenaCheckpointEvent) : Except PyExc Bool :=
  if !e.isNonWait then .ok false
  else match a.stateByCoord.lookup (e.fixtureId, e.tickSeq) with
    | none => .ok false
    | some entry => do
      let closing ← a.closingOf e
      return (← recompute format entry e.action closing .replay).valid

/-- The scoreable ones of some events. -/
def scoreable (format : Json.FloatFormat PyFloat) (a : ArenaComparison)
    (events : List ArenaCheckpointEvent) : Except PyExc (List ArenaCheckpointEvent) := do
  let kept ← events.mapM fun e => return if ← a.isScoreable format e then some e else none
  return kept.reduceOption

/-- `_tallies`. -/
def tallies (format : Json.FloatFormat PyFloat) (a : ArenaComparison) (contestant : Contestant) :
    Except PyExc ContestantRow := do
  let eligible := (a.opportunities contestant).length
  let own := a.events.filter fun e => e.contestant = contestant
  let actions := own.countP (·.isNonWait)
  return {
    actions := actions
    waits := eligible - actions
    scoreableDecisions := (← a.scoreable format own).length
    eligibleCheckpoints := eligible }

/-- The note on a comparison whose opportunities were not shared. -/
def droppedNote : String :=
  "identical-opportunity claim DROPPED: contestants did not share the same " ++
    "(checkpoint_ts, evidence_hash) sequence — comparison is per-contestant, never averaged."

/-- `report`. -/
def report (format : Json.FloatFormat PyFloat) (a : ArenaComparison) :
    Except PyExc ArenaComparisonReport := do
  let detOpps := a.opportunities .detDrift
  let llmOpps := a.opportunities .llmDrift
  let identical := decide (detOpps = llmOpps) && !detOpps.isEmpty
  let detTally ← a.tallies format .detDrift
  let llmTally ← a.tallies format .llmDrift
  let scored ← a.scoreable format a.events
  return {
    identicalOpportunities := identical
    eligibleCheckpoints := if identical then detOpps.length else 0
    fixtureCount := a.fixtureIds.length
    contestants := [(.detDrift, detTally), (.llmDrift, llmTally)]
    scoreableDecisions := detTally.scoreableDecisions + llmTally.scoreableDecisions
    clusteredUncertainty := {
      scoreableDecisions := detTally.scoreableDecisions + llmTally.scoreableDecisions
      distinctMarkets := ((scored.map (·.marketKey)).pwFilter
        fun key other => Decoded.eqv key other = false).length
      distinctCheckpoints := (scored.map (·.checkpointTs)).dedup.length }
    sharedCheckpoints := if identical then detOpps else []
    notes := if identical then [] else [droppedNote] }

/-! ## When a report is assembled -/

variable {format : Json.FloatFormat PyFloat} {a : ArenaComparison}
  {events kept : List ArenaCheckpointEvent} {e : ArenaCheckpointEvent}

/-- The law answers on a decision: its market can be looked up, and the verdict is not an exception. -/
def LawAnswers (format : Json.FloatFormat PyFloat) (a : ArenaComparison) (e : ArenaCheckpointEvent) :
    Prop :=
  ∀ entry, a.stateByCoord.lookup (e.fixtureId, e.tickSeq) = some entry →
    (∃ name, e.marketKey.key = .ok name) ∧ ∀ closing, a.closingOf e = .ok closing →
      ∃ verdict, recompute format entry e.action closing .replay = .ok verdict

theorem closingOf_ok : (∃ closing, a.closingOf e = .ok closing) ↔
    ∃ name, e.marketKey.key = .ok name := by
  unfold closingOf
  cases e.marketKey <;> simp [Decoded.key, bind, Except.bind, pure, Except.pure]

/-- **A decision is judged** when it is none, is `WAIT`, or the law answers on it. -/
theorem isScoreable_ok : (∃ judged, a.isScoreable format e = .ok judged) ↔
    (e.isNonWait = true → a.LawAnswers format e) := by
  unfold isScoreable LawAnswers
  cases hwait : e.isNonWait with
  | false => simp
  | true =>
    cases hentry : a.stateByCoord.lookup (e.fixtureId, e.tickSeq) with
    | none => simp
    | some entry =>
      simp only [Bool.not_true, Bool.false_eq_true, if_false, true_implies, Option.some.injEq,
        forall_eq']
      rw [← closingOf_ok]
      constructor
      · rintro ⟨judged, h⟩
        obtain ⟨closing, hclosing, h⟩ := bind_eq_ok.mp h
        obtain ⟨verdict, hverdict, -⟩ := bind_eq_ok.mp h
        refine ⟨⟨closing, hclosing⟩, fun closing' hclosing' => ⟨verdict, ?_⟩⟩
        obtain rfl := Except.ok.inj (hclosing.symm.trans hclosing')
        exact hverdict
      · rintro ⟨⟨closing, hclosing⟩, hlaw⟩
        obtain ⟨verdict, hverdict⟩ := hlaw closing hclosing
        exact ⟨verdict.valid, bind_eq_ok.mpr ⟨closing, hclosing,
          bind_eq_ok.mpr ⟨verdict, hverdict, rfl⟩⟩⟩

theorem scoreable_ok : (∃ kept, a.scoreable format events = .ok kept) ↔
    ∀ e ∈ events, ∃ judged, a.isScoreable format e = .ok judged := by
  constructor
  · rintro ⟨kept, h⟩ e he
    obtain ⟨marks, hmarks, -⟩ := bind_eq_ok.mp h
    obtain ⟨mark, -, hmark⟩ := exists_of_mapM_ok hmarks he
    obtain ⟨judged, hjudged, -⟩ := bind_eq_ok.mp hmark
    exact ⟨judged, hjudged⟩
  · intro h
    have hall : ∀ e ∈ events, ∃ mark : Option ArenaCheckpointEvent,
        (do return if ← a.isScoreable format e then some e else none) = Except.ok mark := by
      intro e he
      obtain ⟨judged, hjudged⟩ := h e he
      exact ⟨_, bind_eq_ok.mpr ⟨judged, hjudged, rfl⟩⟩
    obtain ⟨marks, hmarks⟩ := exists_mapM_ok hall
    exact ⟨marks.reduceOption, bind_eq_ok.mpr ⟨marks, hmarks, rfl⟩⟩

/-- What is scoreable is an action. -/
theorem scoreable_le (h : a.scoreable format events = .ok kept) :
    kept.length ≤ events.countP (·.isNonWait) := by
  obtain ⟨marks, hmarks, hkept⟩ := bind_eq_ok.mp h
  obtain rfl := Except.ok.inj hkept
  have hall := mapM_eq_ok.mp hmarks
  clear hmarks h hkept
  induction hall with
  | nil => simp
  | @cons e mark events marks hmark _ ih =>
    obtain ⟨judged, hjudged, hmark⟩ := bind_eq_ok.mp hmark
    obtain rfl := Except.ok.inj hmark
    rw [List.countP_cons]
    cases judged with
    | false =>
      simp only [Bool.false_eq_true, if_false, List.reduceOption_cons_of_none]
      omega
    | true =>
      have hwait : e.isNonWait = true := by
        cases hwait : e.isNonWait with
        | true => rfl
        | false => simp [isScoreable, hwait] at hjudged
      simp only [if_true, List.reduceOption_cons_of_some, List.length_cons, hwait]
      omega

theorem tallies_ok {contestant : Contestant} : (∃ row, a.tallies format contestant = .ok row) ↔
    ∀ e ∈ a.events, e.contestant = contestant → ∃ judged, a.isScoreable format e = .ok judged := by
  unfold tallies
  simp only [bind_eq_ok]
  constructor
  · rintro ⟨row, kept, hkept, -⟩ e he hcontestant
    exact scoreable_ok.mp ⟨kept, hkept⟩ e (by simp [he, hcontestant])
  · intro h
    have hown : ∀ e ∈ a.events.filter fun e => decide (e.contestant = contestant),
        ∃ judged, a.isScoreable format e = .ok judged := by
      intro e he
      obtain ⟨hmem, hcontestant⟩ := List.mem_filter.mp he
      exact h e hmem (of_decide_eq_true hcontestant)
    obtain ⟨kept, hkept⟩ := scoreable_ok.mpr hown
    exact ⟨_, kept, hkept, rfl⟩

/-- **A report is assembled** when the law answers on every action of the trail. -/
theorem report_ok : (∃ r, a.report format = .ok r) ↔
    ∀ e ∈ a.events, e.isNonWait = true → a.LawAnswers format e := by
  simp only [← isScoreable_ok]
  constructor
  · rintro ⟨r, h⟩
    obtain ⟨det, -, h⟩ := bind_eq_ok.mp h
    obtain ⟨llm, -, h⟩ := bind_eq_ok.mp h
    obtain ⟨kept, hkept, -⟩ := bind_eq_ok.mp h
    exact scoreable_ok.mp ⟨kept, hkept⟩
  · intro h
    obtain ⟨det, hdet⟩ := tallies_ok.mpr fun e he (_ : e.contestant = .detDrift) => h e he
    obtain ⟨llm, hllm⟩ := tallies_ok.mpr fun e he (_ : e.contestant = .llmDrift) => h e he
    obtain ⟨kept, hkept⟩ := scoreable_ok.mpr h
    exact ⟨_, bind_eq_ok.mpr ⟨det, hdet, bind_eq_ok.mpr ⟨llm, hllm,
      bind_eq_ok.mpr ⟨kept, hkept, rfl⟩⟩⟩⟩

/-- The actions of a contestant. -/
def actions (a : ArenaComparison) (contestant : Contestant) : ℕ :=
  (a.events.filter fun e => e.contestant = contestant).countP (·.isNonWait)

/-- **What a report says**: of the opportunities, and of each contestant. -/
theorem report_tells {r : ArenaComparisonReport} (h : a.report format = .ok r) :
    (r.identicalOpportunities = true ↔
      a.opportunities .detDrift = a.opportunities .llmDrift ∧ a.opportunities .detDrift ≠ []) ∧
    ∀ contestant row, (contestant, row) ∈ r.contestants → row.actions = a.actions contestant ∧
      row.eligibleCheckpoints = (a.opportunities contestant).length ∧
      row.scoreableDecisions ≤ row.actions := by
  obtain ⟨det, hdet, h⟩ := bind_eq_ok.mp h
  obtain ⟨llm, hllm, h⟩ := bind_eq_ok.mp h
  obtain ⟨kept, -, h⟩ := bind_eq_ok.mp h
  obtain rfl := Except.ok.inj h
  have hrow : ∀ {contestant row}, a.tallies format contestant = .ok row →
      row.actions = a.actions contestant ∧
      row.eligibleCheckpoints = (a.opportunities contestant).length ∧
      row.scoreableDecisions ≤ row.actions := by
    intro contestant row htallies
    obtain ⟨own, hown, hrow⟩ := bind_eq_ok.mp htallies
    obtain rfl := Except.ok.inj hrow
    exact ⟨rfl, rfl, scoreable_le hown⟩
  refine ⟨by simp, ?_⟩
  intro contestant row hmem
  rcases List.mem_pair.mp hmem with heq | heq
  · obtain ⟨rfl, rfl⟩ := Prod.mk.inj heq
    exact hrow hdet
  · obtain ⟨rfl, rfl⟩ := Prod.mk.inj heq
    exact hrow hllm

end ArenaComparison

end Veridex.Runtime
