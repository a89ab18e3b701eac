import Veridex.MmStrategy.Runs
import Veridex.MmStrategy.Placements

/-!
# What stands after a plan

A plan is applied to the orders that rest: `cancel_all_orders` removes them all, each `place_quote`
adds one on its side. `StandsClean` asks that no side is stacked, that a residual pull leaves nothing
on the side it pulls, and a reduction nothing on the side that grows the position.

`decide` cancels only to quote nothing. A frame that quotes places its legs beside whatever rests,
unless the very same legs rest already. `runs_standClean_iff` says when the decision stands clean.
-/

namespace Veridex.MmStrategy

open Veridex.Py Veridex.Lib

/-! ## Applying a plan -/

/-- The side a leg is placed on. -/
def LegRole.side : LegRole → Option Side
  | .bid => some .bid
  | .ask => some .ask
  | .reduce => none

@[simp] theorem Side.role_side (side : Side) : side.role.side = some side := by
  cases side <;> rfl

/-- The sides that stand after a leg. `decide` emits no `replace_quote`. -/
def standAfter (standing : List Side) (leg : NeutralIntent) : List Side :=
  match leg.kind with
  | .cancelAllOrders => []
  | .placeQuote => standing ++ (leg.legRole.bind LegRole.side).toList
  | .replaceQuote | .abstain => standing

/-- The sides of the orders that rest. -/
def restingSides (observation : StrategyObservation) : List Side :=
  observation.inventory.resting.map RestingOrderView.side

/-- The sides of the orders that stand once the plan is applied. -/
def standing (observation : StrategyObservation) (decision : StrategyDecision) : List Side :=
  decision.intentPlan.foldl standAfter (restingSides observation)

/-- No stacked and no stranded quotes. A list of sides has no duplicate when at most one order is on
each. -/
structure StandsClean (observation : StrategyObservation) (decision : StrategyDecision) : Prop where
  unstacked : (restingSides observation).Nodup → (standing observation decision).Nodup
  pulled : ∀ pulled, decision.kind = .quoteOneSided → pullReason pulled ∈ decision.reasonCodes →
    pulled ∉ standing observation decision
  reduced : decision.kind = .oneSidedReduce →
    (reducingLeg observation.inventory.netPosition).opposite ∉ standing observation decision

variable {platform : Platform} {config : StrategyConfig} {sessionId : String}
  {observation : StrategyObservation} {state nextState : StrategyState}
  {decision : StrategyDecision}

theorem foldl_standAfter_place (legs : List QuoteLeg) (sides : List Side) :
    (legs.map placeLeg).foldl standAfter sides = sides ++ legs.map QuoteLeg.side := by
  induction legs generalizing sides with
  | nil => simp
  | cons leg legs ih =>
    have hleg : standAfter sides (placeLeg leg) = sides ++ [leg.side] := by
      simp [standAfter, placeLeg]
    rw [List.map_cons, List.foldl_cons, hleg, ih, List.map_cons, List.append_assoc,
      List.singleton_append]

theorem standing_quoteDecision (kind : DecisionKind) (reasons : List ReasonCode)
    (legs : List QuoteLeg) : standing observation (quoteDecision kind reasons legs) =
      restingSides observation ++ legs.map QuoteLeg.side :=
  foldl_standAfter_place legs _

/-- A stamp moves no order. -/
theorem standing_stampIdentity : standing observation
    (stampIdentity platform observation config decision state nextState sessionId) =
      standing observation decision := by
  have hleg : ∀ identity sides leg,
      standAfter sides (stampLeg platform identity leg) = standAfter sides leg := by
    intro identity sides leg
    unfold standAfter
    rw [stampLeg_kind, stampLeg_legRole]
  simp [standing, stampIdentity, List.foldl_map, hleg]

/-- An idle decision leaves the orders, or cancels them all. -/
theorem standing_funnel_idle (observation : StrategyObservation) (h : Idle decision) :
    standing observation (funnelCancelOnExposure observation decision) =
        restingSides observation ∨
      standing observation (funnelCancelOnExposure observation decision) = [] := by
  unfold funnelCancelOnExposure
  split_ifs with hkeep
  · left
    simp [standing, h.1]
  · right
    rfl

/-! ## The room a frame needs -/

/-- The legs a frame wants rest already, so it holds. -/
def RestAlready (observation : StrategyObservation) (config : StrategyConfig)
    (legs : List QuoteLeg) : Prop :=
  legs.length = observation.inventory.resting.length ∧
    pairedWith config (legs.map placeLeg) observation.inventory.resting = true

/-- Nothing rests where a leg is placed, if no side is stacked. -/
def Room (observation : StrategyObservation) (sides : List Side) : Prop :=
  (restingSides observation).Nodup → ∀ side ∈ sides, side ∉ restingSides observation

/-- What rests does not obstruct the frame: each set of legs the spine may want rests already or has
room, and the side a reduction or a pull leaves is empty. -/
structure Unobstructed (platform : Platform) (config : StrategyConfig)
    (observation : StrategyObservation) (state : StrategyState) : Prop where
  reduce : ∀ anchor toxic leg, Anchored observation config anchor →
    InventoryBranch observation config anchor →
    toxicLeg platform.halfPow observation (advancedBase observation state config) config anchor =
      .ok toxic →
    some (reducingLeg observation.inventory.netPosition) ≠ toxic →
    sideLeg observation config anchor (reducingLeg observation.inventory.netPosition) = some leg →
    RestAlready observation config [leg] ∨ (Room observation [leg.side] ∧
      (reducingLeg observation.inventory.netPosition).opposite ∉ restingSides observation)
  pull : ∀ anchor pulled leg, Anchored observation config anchor →
    QuoteBranch observation config anchor →
    GuardAllows platform.halfPow observation (advancedBase observation state config) config anchor
      (some pulled) →
    sideLeg observation config anchor pulled.opposite = some leg →
    RestAlready observation config [leg] ∨
      (Room observation [leg.side] ∧ pulled ∉ restingSides observation)
  twoSided : ∀ anchor bid ask, Anchored observation config anchor →
    QuoteBranch observation config anchor →
    GuardAllows platform.halfPow observation (advancedBase observation state config) config anchor
      none →
    sideLeg observation config anchor .bid = some bid →
    sideLeg observation config anchor .ask = some ask →
    RestAlready observation config [bid, ask] ∨ Room observation [.bid, .ask]
  clamped : ∀ anchor side leg, Anchored observation config anchor →
    QuoteBranch observation config anchor →
    GuardAllows platform.halfPow observation (advancedBase observation state config) config anchor
      none →
    sideLeg observation config anchor side = some leg →
    sideLeg observation config anchor side.opposite = none →
    RestAlready observation config [leg] ∨ Room observation [leg.side]

theorem targetIsUnchanged_iff {kind : DecisionKind} {reasons : List ReasonCode}
    {legs : List QuoteLeg} (hlegs : legs ≠ []) :
    targetIsUnchanged observation config (quoteDecision kind reasons legs) = true ↔
      RestAlready observation config legs := by
  have hplan : ((quoteDecision kind reasons legs).intentPlan).isEmpty = false := by
    cases legs with
    | nil => exact absurd rfl hlegs
    | cons leg legs => rfl
  unfold targetIsUnchanged RestAlready
  dsimp only
  rw [hplan, if_neg Bool.false_ne_true]
  simp only [quoteDecision, List.length_map]
  split_ifs with hlength
  · simp [hlength]
  · simp [not_not.mp hlength]

theorem room_iff {sides : List Side} (hsides : sides.Nodup) : Room observation sides ↔
    ((restingSides observation).Nodup → (restingSides observation ++ sides).Nodup) := by
  unfold Room
  refine imp_congr_right fun hresting => ?_
  rw [List.nodup_append]
  constructor
  · intro h
    refine ⟨hresting, hsides, fun a ha b hb hab => ?_⟩
    exact h b hb (hab ▸ ha)
  · rintro ⟨-, -, hdisjoint⟩ side hside hrests
    exact hdisjoint side hrests side hside rfl

/-! ## A decision that places -/

theorem standsClean_stamp_iff : StandsClean observation
    (stampIdentity platform observation config decision state nextState sessionId) ↔
      StandsClean observation decision := by
  constructor
  · rintro ⟨hunstacked, hpulled, hreduced⟩
    rw [standing_stampIdentity] at hunstacked hreduced
    refine ⟨hunstacked, fun pulled hkind hreason => ?_, hreduced⟩
    have hclear := hpulled pulled hkind hreason
    rwa [standing_stampIdentity] at hclear
  · rintro ⟨hunstacked, hpulled, hreduced⟩
    refine ⟨?_, fun pulled hkind hreason => ?_, fun hkind => ?_⟩
    · rwa [standing_stampIdentity]
    · rw [standing_stampIdentity]
      exact hpulled pulled hkind hreason
    · rw [standing_stampIdentity]
      exact hreduced hkind

theorem standsClean_idle (h : Idle decision) :
    StandsClean observation (funnelCancelOnExposure observation decision) := by
  have hkind : (funnelCancelOnExposure observation decision).kind = decision.kind := by
    unfold funnelCancelOnExposure
    split_ifs <;> rfl
  refine ⟨fun hresting => ?_, fun pulled hone => ?_, fun hreduce => ?_⟩
  · rcases standing_funnel_idle observation h with hsame | hnone
    · rwa [hsame]
    · rw [hnone]
      exact List.nodup_nil
  · rw [hkind] at hone
    rcases h.2 with hno | hhold <;> simp_all
  · rw [hkind] at hreduce
    rcases h.2 with hno | hhold <;> simp_all

/-! ## Room is what a placement needs -/

theorem opposite_ne (side : Side) : side.opposite ≠ side := by
  cases side <;> decide

theorem pullReason_injective : Function.Injective pullReason := by
  intro a b h
  cases a <;> cases b <;> first | rfl | cases h

/-- A decision of one leg leaves a side empty when nothing rests there and the leg is on the other
side. -/
theorem notMem_standing_oneLeg {kind : DecisionKind} {reasons : List ReasonCode} {leg : QuoteLeg}
    {side : Side} (hside : leg.side ≠ side) :
    side ∉ standing observation (quoteDecision kind reasons [leg]) ↔
      side ∉ restingSides observation := by
  rw [standing_quoteDecision, List.mem_append, not_or]
  simp [hside.symm]

theorem unstacked_quoteDecision_iff {kind : DecisionKind} {reasons : List ReasonCode}
    {legs : List QuoteLeg} (hsides : (legs.map QuoteLeg.side).Nodup) :
    ((restingSides observation).Nodup →
      (standing observation (quoteDecision kind reasons legs)).Nodup) ↔
    Room observation (legs.map QuoteLeg.side) := by
  rw [standing_quoteDecision, room_iff hsides]

/-- A placement of an unobstructed frame stands clean. -/
theorem Placement.standsClean
    (h : Placement platform.halfPow observation (advancedBase observation state config) config
      decision)
    (hclear : Unobstructed platform config observation state)
    (hnew : targetIsUnchanged observation config decision = false) :
    StandsClean observation decision := by
  cases h with
  | reduce anchor toxic leg anchored branch guard safe priced =>
    have hside := sideLeg_side priced
    obtain hrest | ⟨hroom, haway⟩ := hclear.reduce anchor toxic leg anchored branch guard safe priced
    · rw [(targetIsUnchanged_iff (by simp)).mpr hrest] at hnew
      cases hnew
    · refine ⟨(unstacked_quoteDecision_iff (by simp)).mpr hroom,
        fun _ hkind => (by cases hkind), fun _ => ?_⟩
      refine (notMem_standing_oneLeg ?_).mpr haway
      rw [hside]
      exact (opposite_ne _).symm
  | pull anchor pulled leg anchored branch guard priced =>
    have hside := sideLeg_side priced
    obtain hrest | ⟨hroom, haway⟩ := hclear.pull anchor pulled leg anchored branch guard priced
    · rw [(targetIsUnchanged_iff (by simp)).mpr hrest] at hnew
      cases hnew
    · refine ⟨(unstacked_quoteDecision_iff (by simp)).mpr hroom,
        fun pulled' _ hreason => ?_, fun hkind => (by cases hkind)⟩
      obtain rfl := pullReason_injective (List.mem_singleton.mp hreason)
      refine (notMem_standing_oneLeg ?_).mpr haway
      rw [hside]
      exact opposite_ne _
  | twoSided anchor bid ask anchored branch guard bidPriced askPriced =>
    have hsides : [bid, ask].map QuoteLeg.side = [.bid, .ask] := by
      simp [sideLeg_side bidPriced, sideLeg_side askPriced]
    obtain hrest | hroom := hclear.twoSided anchor bid ask anchored branch guard bidPriced askPriced
    · rw [(targetIsUnchanged_iff (by simp)).mpr hrest] at hnew
      cases hnew
    · rw [← hsides] at hroom
      exact ⟨(unstacked_quoteDecision_iff (by rw [hsides]; decide)).mpr hroom,
        fun _ hkind => (by cases hkind), fun hkind => (by cases hkind)⟩
  | clamped anchor side leg anchored branch guard priced omitted =>
    obtain hrest | hroom := hclear.clamped anchor side leg anchored branch guard priced omitted
    · rw [(targetIsUnchanged_iff (by simp)).mpr hrest] at hnew
      cases hnew
    · refine ⟨(unstacked_quoteDecision_iff (by simp)).mpr hroom,
        fun pulled _ hreason => ?_, fun hkind => (by cases hkind)⟩
      cases pulled <;> cases List.mem_singleton.mp hreason

/-- A frame whose every placement stands clean is unobstructed. -/
theorem unobstructed_of_standsClean
    (h : ∀ desired, Placement platform.halfPow observation (advancedBase observation state config)
      config desired → targetIsUnchanged observation config desired = false →
        StandsClean observation desired) :
    Unobstructed platform config observation state := by
  have hcases : ∀ {kind reasons} {legs : List QuoteLeg}, legs ≠ [] →
      Placement platform.halfPow observation (advancedBase observation state config) config
        (quoteDecision kind reasons legs) →
      RestAlready observation config legs ∨
        StandsClean observation (quoteDecision kind reasons legs) := by
    intro kind reasons legs hlegs hplacement
    by_cases hrest : RestAlready observation config legs
    · exact .inl hrest
    · refine .inr (h _ hplacement ?_)
      rw [← Bool.not_eq_true]
      intro hunchanged
      exact hrest ((targetIsUnchanged_iff hlegs).mp hunchanged)
  constructor
  · intro anchor toxic leg anchored branch guard safe priced
    obtain hrest | hclean := hcases (by simp) (.reduce anchor toxic leg anchored branch guard safe
      priced)
    · exact .inl hrest
    · refine .inr ⟨(unstacked_quoteDecision_iff (by simp)).mp hclean.unstacked, ?_⟩
      refine (notMem_standing_oneLeg ?_).mp (hclean.reduced rfl)
      rw [sideLeg_side priced]
      exact (opposite_ne _).symm
  · intro anchor pulled leg anchored branch guard priced
    obtain hrest | hclean := hcases (by simp) (.pull anchor pulled leg anchored branch guard priced)
    · exact .inl hrest
    · refine .inr ⟨(unstacked_quoteDecision_iff (by simp)).mp hclean.unstacked, ?_⟩
      refine (notMem_standing_oneLeg ?_).mp
        (hclean.pulled pulled rfl (List.mem_singleton.mpr rfl))
      rw [sideLeg_side priced]
      exact opposite_ne _
  · intro anchor bid ask anchored branch guard bidPriced askPriced
    have hsides : [bid, ask].map QuoteLeg.side = [.bid, .ask] := by
      simp [sideLeg_side bidPriced, sideLeg_side askPriced]
    obtain hrest | hclean := hcases (by simp) (.twoSided anchor bid ask anchored branch guard
      bidPriced askPriced)
    · exact .inl hrest
    · rw [← hsides]
      exact .inr ((unstacked_quoteDecision_iff (by rw [hsides]; decide)).mp hclean.unstacked)
  · intro anchor side leg anchored branch guard priced omitted
    obtain hrest | hclean := hcases (by simp) (.clamped anchor side leg anchored branch guard priced
      omitted)
    · exact .inl hrest
    · exact .inr ((unstacked_quoteDecision_iff (by simp)).mp hclean.unstacked)

/-! ## The frames that stand clean -/

theorem Placement.funnel
    (h : Placement platform.halfPow observation (advancedBase observation state config) config
      decision) : funnelCancelOnExposure observation decision = decision := by
  have hkind : decision.kind ≠ .noQuote := by
    cases h <;> simp [quoteDecision]
  simp [funnelCancelOnExposure, hkind]

theorem Placement.not_idle
    (h : Placement platform.halfPow observation (advancedBase observation state config) config
      decision) : ¬ Idle decision := by
  rintro ⟨hplan, -⟩
  cases h <;> simp [quoteDecision] at hplan

/-- **One frame** stands clean exactly when it is not quotable, or unobstructed. -/
theorem DecideStep.standsClean_iff {frame : Frame}
    (h : DecideStep platform config sessionId state frame nextState) :
    StandsClean frame.1 frame.2 ↔
      (Quotable frame.1 state config → Unobstructed platform config frame.1 state) := by
  obtain ⟨raw, hmoves, hdecision⟩ := h.moves
  rw [hdecision, standsClean_stamp_iff]
  obtain ⟨hidle, hquoting⟩ | ⟨hquotable, hdisposition, hnew⟩ := hmoves.quoting_cases
  · -- an idle decision is clean, and a quotable frame then wants what rests already
    refine iff_of_true (standsClean_idle hidle) fun hquotable => ?_
    obtain ⟨decision, hdecided, hunchanged⟩ := hquoting hquotable
    refine unobstructed_of_standsClean fun desired hdesired hnew => ?_
    obtain rfl := Except.ok.inj (hdesired.disposition.symm.trans hdecided)
    rw [hunchanged] at hnew
    cases hnew
  · obtain ⟨reason, rfl⟩ | hplacement := quoteDisposition_cases hdisposition
    · refine iff_of_true (standsClean_idle ⟨rfl, .inl rfl⟩) fun _ => ?_
      refine unobstructed_of_standsClean fun desired hdesired _ => ?_
      obtain rfl := Except.ok.inj (hdesired.disposition.symm.trans hdisposition)
      exact absurd ⟨rfl, .inl rfl⟩ hdesired.not_idle
    · rw [hplacement.funnel]
      constructor
      · intro hclean _
        refine unobstructed_of_standsClean fun desired hdesired _ => ?_
        obtain rfl := Except.ok.inj (hdesired.disposition.symm.trans hdisposition)
        exact hclean
      · intro hclear
        exact hplacement.standsClean (hclear hquotable) hnew

/-- **No stacked or stranded quotes, exactly**: a frame of a run stands clean if and only if it is
not quotable, or what rests does not obstruct it. -/
theorem runs_standClean_iff {before after : List Frame} {frame : Frame} {last : StrategyState}
    (h : StrategyRun platform config sessionId {} (before ++ frame :: after) last) :
    ∃ state, StrategyRun platform config sessionId {} before state ∧
      (StandsClean frame.1 frame.2 ↔
        (Quotable frame.1 state config → Unobstructed platform config frame.1 state)) := by
  obtain ⟨state, nextState, hbefore, hstep, -⟩ := h.step_at
  exact ⟨state, hbefore, hstep.standsClean_iff⟩

/-- A healthy frame with a bid of ours resting below the best bid. -/
def behindFrame : StrategyObservation :=
  healthyFrame 2 2 (48 / 100) (52 / 100)
    [{ clientOrderId := "c", side := .bid, price := 40 / 100, size := 10 }]

/-- The third frame of an unguarded run quotes both sides beside the resting bid. -/
theorem run_behindFrame : ∃ (before : List Frame) (frame : Frame) (last : StrategyState),
    frame.1 = behindFrame ∧ standing behindFrame frame.2 = [.bid, .bid, .ask] ∧
    StrategyRun flatPlatform (promptConfig false) "" {} (before ++ frame :: []) last := by
  have hstanding : (decideAll flatPlatform (promptConfig false) "" {}
      [healthyFrame 0 0 (48 / 100) (52 / 100) [], healthyFrame 1 1 (48 / 100) (52 / 100) [],
        behindFrame]).map (fun result => result.1.map fun decision => standing behindFrame decision) =
      .ok [[.bid], [.bid], [.bid, .bid, .ask]] := by decide +kernel
  obtain ⟨frames, last, hobservations, hviews, hrun⟩ := run_of_view hstanding
  obtain ⟨first, second, frame, rfl⟩ := List.length_eq_three.mp
    (by simpa using congrArg List.length hviews)
  simp only [List.map_cons, List.map_nil, List.cons.injEq, and_true] at hobservations hviews
  exact ⟨[first, second], frame, last, hobservations.2.2, hviews.2.2, hrun⟩

/-- The frame is quotable and obstructed. -/
theorem runs_standClean_iff_behindFrame : ∃ (before : List Frame) (frame : Frame)
    (state : StrategyState),
    StrategyRun flatPlatform (promptConfig false) "" {} before state ∧ frame.1 = behindFrame ∧
      Quotable frame.1 state (promptConfig false) ∧
      ¬ Unobstructed flatPlatform (promptConfig false) frame.1 state := by
  obtain ⟨before, frame, last, hframe, hstanding, hrun⟩ := run_behindFrame
  obtain ⟨state, hbefore, hiff⟩ := runs_standClean_iff hrun
  have hdirty : ¬ StandsClean frame.1 frame.2 := by
    intro hclean
    have hnodup := hclean.unstacked (by rw [hframe]; decide)
    rw [hframe, hstanding] at hnodup
    exact absurd hnodup (by decide)
  rw [hiff, Classical.not_imp] at hdirty
  exact ⟨before, frame, state, hbefore, hframe, hdirty.1, hdirty.2⟩

/-- Quotes are stacked: a resting bid and a new one. -/
theorem decide_stacks : ¬ ∀ (platform : Platform) (config : StrategyConfig) (sessionId : String)
    (before after : List Frame) (frame : Frame) (last : StrategyState),
    StrategyRun platform config sessionId {} (before ++ frame :: after) last →
      StandsClean frame.1 frame.2 := by
  intro h
  obtain ⟨before, frame, last, hframe, hstanding, hrun⟩ := run_behindFrame
  have hclean := h _ _ _ before [] frame last hrun
  have hnodup := hclean.unstacked (by rw [hframe]; decide)
  rw [hframe, hstanding] at hnodup
  exact absurd hnodup (by decide)

end Veridex.MmStrategy
