import Veridex.Venues.Polymarket

/-!
# The price on the wire

An order reaches the venue at the tick nearest to its native price, so up to half a tick above it or
below it (`wire_price`); `wire_price_dearer` is an order that is sent above.
-/

namespace Veridex.Venues

open Veridex.Py

theorem roundToTick_ok {q tick rounded : ℚ} (h : roundToTick (.fin q) tick = .ok rounded) :
    0 < tick ∧ rounded = pyRound (q / tick) * tick := by
  rw [roundToTick] at h
  split at h
  · exact nomatch h
  · next hpos => exact ⟨not_le.mp hpos, (Except.ok.inj h).symm⟩

/-- **Rounding** moves a price by half a tick at most. -/
theorem roundToTick_near {q tick rounded : ℚ} (h : roundToTick (.fin q) tick = .ok rounded) :
    |rounded - q| ≤ tick / 2 := by
  obtain ⟨htick, rfl⟩ := roundToTick_ok h
  have hnear := DustExecution.abs_sub_pyRound_le (q / tick)
  have hscale : pyRound (q / tick) * tick - q = -((q / tick - pyRound (q / tick)) * tick) := by
    rw [sub_mul, div_mul_cancel₀ q htick.ne', neg_sub]
  rw [hscale, abs_neg, abs_mul, abs_of_pos htick]
  calc |q / tick - pyRound (q / tick)| * tick ≤ 1 / 2 * tick :=
        mul_le_mul_of_nonneg_right hnear htick.le
    _ = tick / 2 := by ring

variable {adapter : PolymarketAdapter} {order : Order} {wire : LimitOrder} {price : ℚ}

/-- What an order that reaches the wire has passed. -/
theorem submitOrder_ok (h : adapter.submitOrder order = .ok wire) (hprice : order.price = .fin price) :
    0 < price ∧ roundToTick (.fin (1 / price)) adapter.resolved.tickSize = .ok wire.price ∧
      0 < wire.price ∧ wire.price < 1 := by
  obtain ⟨_, _, harmed⟩ := Lib.bind_eq_ok.mp h
  obtain ⟨_, _, htoken⟩ := Lib.bind_eq_ok.mp harmed
  obtain ⟨native, hnative, hrest⟩ := Lib.bind_eq_ok.mp htoken
  obtain ⟨rounded, hrounded, hsent⟩ := Lib.bind_eq_ok.mp hrest
  rw [hprice, decimalToNative] at hnative
  split at hnative
  · exact nomatch hnative
  · next hpos =>
    obtain rfl := Except.ok.inj hnative
    by_cases hinside : 0 < rounded ∧ rounded < 1
    · rw [if_pos hinside] at hsent
      obtain rfl := Except.ok.inj hsent
      exact ⟨not_le.mp hpos, hrounded, hinside⟩
    · rw [if_neg hinside] at hsent
      exact nomatch hsent

/-- **The price on the wire** is a multiple of the tick, inside `(0, 1)`, and the nearest one to the
native price of the order. -/
theorem wire_price (h : adapter.submitOrder order = .ok wire) (hprice : order.price = .fin price) :
    (∃ ticks : ℤ, wire.price = ticks * adapter.resolved.tickSize) ∧
      (0 < wire.price ∧ wire.price < 1) ∧
        wire.price ≤ 1 / price + adapter.resolved.tickSize / 2 ∧
          1 / price - adapter.resolved.tickSize / 2 ≤ wire.price ∧
            1 / price - adapter.resolved.tickSize < wire.price := by
  obtain ⟨-, hround, hinside⟩ := submitOrder_ok h hprice
  obtain ⟨htick, hmultiple⟩ := roundToTick_ok hround
  obtain ⟨hbelow, habove⟩ := abs_le.mp (roundToTick_near hround)
  exact ⟨⟨_, hmultiple⟩, hinside, by linarith, by linarith, by linarith⟩

/-- An adapter that is armed, on a market with ticks of a cent. -/
def armedAdapter : PolymarketAdapter where
  resolved := ⟨⟨"111", "222", false⟩, 1 / 100⟩
  writeEnabled := true
  hasWriteClient := true
  dryRun := false

/-- An order at decimal odds of 1.90. -/
def oddsOrder : Order :=
  { marketRef := "m", side := "yes", size := .fin 2, price := .fin (19 / 10), venue := "polymarket",
    clientOrderId := "coid-1" }

theorem oddsOrder_submitted : armedAdapter.submitOrder oddsOrder =
    .ok { ticker := "111", amount := .fin 2, price := 53 / 100, tif := .fak, tickSize := 1 / 100 } := by
  decide +kernel

/-- The price of that order, on the wire. -/
theorem wire_price_odds :
    (∃ ticks : ℤ, (53 / 100 : ℚ) = ticks * armedAdapter.resolved.tickSize) ∧
      ((0 : ℚ) < 53 / 100 ∧ (53 / 100 : ℚ) < 1) ∧
        (53 / 100 : ℚ) ≤ 1 / (19 / 10) + armedAdapter.resolved.tickSize / 2 ∧
          1 / (19 / 10) - armedAdapter.resolved.tickSize / 2 ≤ (53 / 100 : ℚ) ∧
            1 / (19 / 10) - armedAdapter.resolved.tickSize < (53 / 100 : ℚ) :=
  wire_price oddsOrder_submitted rfl

/-- **Above the native price**: the order at 1.90 is sent at 53 cents, for a native price under that. -/
theorem wire_price_dearer : ∃ wire, armedAdapter.submitOrder oddsOrder = .ok wire ∧
    1 / (19 / 10) < wire.price :=
  ⟨_, oddsOrder_submitted, by decide +kernel⟩

end Veridex.Venues
