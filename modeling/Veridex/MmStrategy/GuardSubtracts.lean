import Veridex.MmStrategy.AblationArms
import Veridex.MmStrategy.Placements

/-!
# The guard only subtracts (`_quote_disposition`, core.py)

The two arms go down one spine. They part in the inventory branch, where the guarded arm may refuse the
reducing leg, and below the two-sided band, where it may refuse the frame or pull one side of the quote.
`Subtracts` says what may be left of a plan: all of it, none of it, or all but the legs of one side.

With the basis cold both places are closed, and with the guard off neither reads the fair value or the
basis.
-/

namespace Veridex.MmStrategy

open Veridex.Py Veridex.Lib

variable {halfPow : ℚ → ℚ} {observation : StrategyObservation} {base base' : StrategyState}
  {config : StrategyConfig} {anchor : ℚ} {on off : StrategyDecision}

/-- The plan without its legs of one side, of which it has one. -/
def DropsSide (on off : StrategyDecision) : Prop :=
  ∃ side : Side, on.intentPlan = off.intentPlan.filter (·.legRole != some side.role) ∧
    (off.intentPlan.filter (·.legRole == some side.role)).length = 1

/-- What the guard leaves of a plan. -/
structure Subtracts (on off : StrategyDecision) : Prop where
  /-- Each leg of the guarded plan, its side and its price, is one of the other. -/
  legs : ∀ leg ∈ on.intentPlan, leg ∈ off.intentPlan
  /-- What is dropped is one side, or every leg. -/
  dropped : on.intentPlan = off.intentPlan ∨ on.intentPlan = [] ∨ DropsSide on off

theorem Subtracts.refl (decision : StrategyDecision) : Subtracts decision decision :=
  ⟨fun _ h => h, .inl rfl⟩

theorem Subtracts.nothing (h : on.intentPlan = []) : Subtracts on off :=
  ⟨fun _ hleg => absurd (h ▸ hleg) List.not_mem_nil, .inr (.inl h)⟩

/-! ## The legs of the quotes -/

@[simp] theorem intentPlan_decideKind (kind : DecisionKind) (reasons : List ReasonCode) :
    (decideKind kind reasons).intentPlan = [] := rfl

@[simp] theorem intentPlan_quoteDecision (kind : DecisionKind) (reasons : List ReasonCode)
    (legs : List QuoteLeg) : (quoteDecision kind reasons legs).intentPlan = legs.map placeLeg := rfl

theorem intentPlan_of_abstains (h : Abstains on) : on.intentPlan = [] := by
  obtain ⟨reason, rfl⟩ := h
  rfl

/-- One quoted side is its leg. -/
theorem intentPlan_oneLegQuote (side : Side) (kind : DecisionKind) (reason : ReasonCode) :
    (oneLegQuote observation config anchor side kind reason).intentPlan =
      (sideLeg observation config anchor side).toList.map placeLeg := by
  cases h : sideLeg observation config anchor side with
  | none => exact intentPlan_of_abstains (oneLegQuote_none kind reason h)
  | some leg =>
    rw [oneLegQuote_some kind reason h]
    rfl

/-- A two-sided quote is the legs of its sides. -/
theorem intentPlan_twoSidedQuote :
    (twoSidedQuote observation config anchor).intentPlan =
      ((sideLeg observation config anchor .bid).toList ++
        (sideLeg observation config anchor .ask).toList).map placeLeg := by
  cases hbid : sideLeg observation config anchor .bid with
  | none =>
    cases hask : sideLeg observation config anchor .ask with
    | none => exact intentPlan_of_abstains (twoSidedQuote_none hbid hask)
    | some ask =>
      rw [twoSidedQuote_eq, hbid, hask]
      rfl
  | some bid =>
    cases hask : sideLeg observation config anchor .ask with
    | none =>
      rw [twoSidedQuote_eq, hbid, hask]
      rfl
    | some ask =>
      rw [twoSidedQuote_eq, hbid, hask]
      rfl

@[simp] theorem legRole_placeLeg (leg : QuoteLeg) : (placeLeg leg).legRole = some leg.side.role := rfl

theorem intentPlan_residualPullQuote (toxic : Side) :
    (residualPullQuote observation config anchor toxic).intentPlan =
      (sideLeg observation config anchor toxic.opposite).toList.map placeLeg := by
  cases toxic with
  | bid => exact intentPlan_oneLegQuote _ _ _
  | ask => exact intentPlan_oneLegQuote _ _ _

/-- A pulled side leaves the leg of the other. -/
theorem subtracts_residualPullQuote (toxic : Side) :
    Subtracts (residualPullQuote observation config anchor toxic)
      (twoSidedQuote observation config anchor) := by
  have hpull : (residualPullQuote observation config anchor toxic).intentPlan =
      (sideLeg observation config anchor toxic.opposite).toList.map placeLeg :=
    intentPlan_residualPullQuote toxic
  constructor
  · intro leg hleg
    rw [hpull] at hleg
    rw [intentPlan_twoSidedQuote, List.map_append, List.mem_append]
    cases toxic with
    | bid => exact .inr hleg
    | ask => exact .inl hleg
  · cases htoxic : sideLeg observation config anchor toxic with
    | none =>
      refine .inl ?_
      rw [hpull, intentPlan_twoSidedQuote]
      cases toxic with
      | bid => rw [htoxic, Side.opposite, Option.toList_none, List.nil_append]
      | ask => rw [htoxic, Side.opposite, Option.toList_none, List.append_nil]
    | some pulled =>
      -- the pulled leg is the only one of its side
      refine .inr (.inr ⟨toxic, ?_⟩)
      rw [hpull, intentPlan_twoSidedQuote]
      have hside := sideLeg_side htoxic
      cases hleft : sideLeg observation config anchor toxic.opposite with
      | none =>
        cases toxic with
        | bid =>
          dsimp only [Side.opposite] at hleft ⊢
          rw [htoxic, hleft]
          simp [hside]
        | ask =>
          dsimp only [Side.opposite] at hleft ⊢
          rw [htoxic, hleft]
          simp [hside]
      | some kept =>
        have hkept := sideLeg_side hleft
        cases toxic with
        | bid =>
          dsimp only [Side.opposite] at hleft hkept ⊢
          rw [htoxic, hleft]
          simp [hside, hkept, Side.role]
        | ask =>
          dsimp only [Side.opposite] at hleft hkept ⊢
          rw [htoxic, hleft]
          simp [hside, hkept, Side.role]

/-! ## The inventory branch -/

theorem inventoryReduce_unguarded (netPosition : ℚ) :
    inventoryReduce halfPow observation base (config.arm false) anchor netPosition =
      .ok (oneLegQuote observation config anchor (reducingLeg netPosition) .oneSidedReduce
        .inventoryReduce) := rfl

/-- The reducing leg is quoted, or it is refused. -/
theorem subtracts_inventoryReduce {netPosition : ℚ}
    (h : inventoryReduce halfPow observation base (config.arm true) anchor netPosition = .ok on) :
    Subtracts on (oneLegQuote observation config anchor (reducingLeg netPosition) .oneSidedReduce
      .inventoryReduce) := by
  rw [inventoryReduce] at h
  cases htoxic : toxicLeg halfPow observation base (config.arm true) anchor with
  | error e =>
    rw [htoxic] at h
    exact nomatch h
  | ok toxic =>
    rw [htoxic] at h
    simp only [bind, Except.bind, pure, Except.pure] at h
    split at h
    · obtain rfl := Except.ok.inj h
      exact .nothing rfl
    · obtain rfl := Except.ok.inj h
      exact .refl _

/-- With the basis cold the guard has no residual. -/
theorem inventoryReduce_cold (hcold : basisIsWarm base config = false) (netPosition : ℚ) :
    inventoryReduce halfPow observation base (config.arm true) anchor netPosition =
      .ok (oneLegQuote observation config anchor (reducingLeg netPosition) .oneSidedReduce
        .inventoryReduce) := by
  have hresidual : guardResidual halfPow observation base (config.arm true) anchor = .ok none := by
    have hcold' : basisIsWarm base (config.arm true) = false := hcold
    rw [guardResidual, hcold']
    split_ifs
    · rfl
    · rfl
    · rfl
    · next h => exact absurd rfl h
  rw [inventoryReduce, toxicLeg, hresidual]
  rfl

/-! ## The guard slot -/

/-- The guarded quote is refused, one-sided, or the two-sided one. -/
theorem subtracts_guardedQuote
    (h : guardedQuote halfPow observation base (config.arm true) anchor = .ok on) :
    Subtracts on (twoSidedQuote observation config anchor) := by
  rw [guardedQuote] at h
  split at h
  · obtain rfl := Except.ok.inj h
    exact .nothing rfl
  · cases hexceeds : prematchBasisExceedsSpread halfPow observation base (config.arm true) with
    | error e =>
      rw [hexceeds] at h
      exact nomatch h
    | ok exceeds =>
      rw [hexceeds] at h
      dsimp only [bind, Except.bind, pure, Except.pure] at h
      split at h
      · obtain rfl := Except.ok.inj h
        exact .nothing rfl
      · cases hresidual : guardResidual halfPow observation base (config.arm true) anchor with
        | error e =>
          rw [hresidual] at h
          exact nomatch h
        | ok residual =>
          rw [hresidual] at h
          dsimp only at h
          split at h
          · obtain rfl := Except.ok.inj h
            exact .refl _
          · split at h
            · obtain rfl := Except.ok.inj h
              exact .nothing rfl
            · split at h
              · obtain rfl := Except.ok.inj h
                exact subtracts_residualPullQuote _
              · obtain rfl := Except.ok.inj h
                exact .refl _

/-! ## The disposition -/

/-- The spine of an arm: the guard is looked at in the inventory branch and below the band alone. -/
theorem quoteDisposition_arm (guard : Bool) :
    quoteDisposition halfPow observation base (config.arm guard) =
      match venueAnchor observation config with
      | none => .ok (decideKind .noQuote [noAnchorReason observation config])
      | some anchor =>
        let netPosition := observation.inventory.netPosition
        if ¬ (config.boundaryZone.1 ≤ anchor ∧ anchor ≤ config.boundaryZone.2) then
          .ok (decideKind .noQuote [.boundaryZone])
        else if config.inventorySoftLimit.le (.fin |netPosition|) then
          inventoryReduce halfPow observation base (config.arm guard) anchor netPosition
        else if ¬ (config.twoSidedBand.1 ≤ anchor ∧ anchor ≤ config.twoSidedBand.2) then
          if netPosition ≠ 0 then
            inventoryReduce halfPow observation base (config.arm guard) anchor netPosition
          else .ok (decideKind .noQuote [.twoSidedZoneExit])
        else if guard && basisIsWarm base config then
          guardedQuote halfPow observation base (config.arm guard) anchor
        else .ok (twoSidedQuote observation config anchor) := rfl

/-- What holds of the two arms where they part holds of what they return. -/
theorem quoteDisposition_arms
    {R : Except PyExc StrategyDecision → Except PyExc StrategyDecision → Prop}
    (hrefl : ∀ decision, R (.ok decision) (.ok decision))
    (hreduce : ∀ anchor netPosition,
      R (inventoryReduce halfPow observation base (config.arm true) anchor netPosition)
        (inventoryReduce halfPow observation base (config.arm false) anchor netPosition))
    (hguard : ∀ anchor, basisIsWarm base config = true →
      R (guardedQuote halfPow observation base (config.arm true) anchor)
        (.ok (twoSidedQuote observation config anchor))) :
    R (quoteDisposition halfPow observation base (config.arm true))
      (quoteDisposition halfPow observation base (config.arm false)) := by
  rw [quoteDisposition_arm, quoteDisposition_arm]
  cases venueAnchor observation config with
  | none => exact hrefl _
  | some anchor =>
    dsimp only
    by_cases hboundary : ¬ (config.boundaryZone.1 ≤ anchor ∧ anchor ≤ config.boundaryZone.2)
    · rw [if_pos hboundary, if_pos hboundary]
      exact hrefl _
    · rw [if_neg hboundary, if_neg hboundary]
      by_cases hlimit : config.inventorySoftLimit.le (.fin |observation.inventory.netPosition|) = true
      · rw [if_pos hlimit, if_pos hlimit]
        exact hreduce anchor _
      · rw [if_neg hlimit, if_neg hlimit]
        by_cases hband : ¬ (config.twoSidedBand.1 ≤ anchor ∧ anchor ≤ config.twoSidedBand.2)
        · rw [if_pos hband, if_pos hband]
          by_cases hflat : observation.inventory.netPosition ≠ 0
          · rw [if_pos hflat, if_pos hflat]
            exact hreduce anchor _
          · rw [if_neg hflat, if_neg hflat]
            exact hrefl _
        · rw [if_neg hband, if_neg hband, Bool.true_and, Bool.false_and]
          by_cases hwarm : basisIsWarm base config = true
          · rw [if_pos hwarm]
            exact hguard anchor hwarm
          · rw [if_neg hwarm]
            exact hrefl _

/-- What the two arms return on one frame. -/
theorem subtracts_quoteDisposition
    (h : quoteDisposition halfPow observation base (config.arm true) = .ok on) :
    ∃ off, quoteDisposition halfPow observation base (config.arm false) = .ok off ∧
      Subtracts on off := by
  refine quoteDisposition_arms (R := fun x y => ∀ on, x = .ok on → ∃ off, y = .ok off ∧
    Subtracts on off) ?_ ?_ ?_ on h
  · intro decision on hon
    obtain rfl := Except.ok.inj hon
    exact ⟨_, rfl, .refl _⟩
  · intro anchor netPosition on hon
    exact ⟨_, inventoryReduce_unguarded _, subtracts_inventoryReduce hon⟩
  · intro anchor _ on hon
    exact ⟨_, rfl, subtracts_guardedQuote hon⟩

/-- With the basis cold the two arms return the same. -/
theorem quoteDisposition_cold (hcold : basisIsWarm base config = false) :
    quoteDisposition halfPow observation base (config.arm true) =
      quoteDisposition halfPow observation base (config.arm false) := by
  refine quoteDisposition_arms (fun _ => rfl) ?_ ?_
  · intro anchor netPosition
    rw [inventoryReduce_cold hcold, inventoryReduce_unguarded]
  · intro anchor hwarm
    rw [hcold] at hwarm
    exact nomatch hwarm

/-- **The guard only subtracts.** Each leg of the guarded plan is one of the unguarded plan, and what is
dropped is one side or every leg; with fewer basis samples than the minimum the two decisions are equal;
and with the guard off the decision does not depend on the fair value or on the basis. -/
theorem guard_subtracts (halfPow : ℚ → ℚ) (observation : StrategyObservation) (base : StrategyState)
    (config : StrategyConfig) :
    (∀ on, quoteDisposition halfPow observation base (config.arm true) = .ok on →
      ∃ off, quoteDisposition halfPow observation base (config.arm false) = .ok off ∧
        Subtracts on off) ∧
      (base.basisSampleCount < config.basisMinSamples →
        quoteDisposition halfPow observation base (config.arm true) =
          quoteDisposition halfPow observation base (config.arm false)) ∧
      ∀ (guardFv : Option GuardFairValue) (hfv : ∀ fv ∈ guardFv, fv.fvRecvTs ≤ observation.asOfTs)
        (base' : StrategyState),
        quoteDisposition halfPow { observation with guardFv := guardFv, fvRecvTs_le := hfv } base'
            (config.arm false) =
          quoteDisposition halfPow observation base (config.arm false) := by
  refine ⟨fun on => subtracts_quoteDisposition, ?_, fun guardFv hfv base' => rfl⟩
  intro hcold
  exact quoteDisposition_cold (decide_eq_false (not_le.mpr hcold))

end Veridex.MmStrategy
