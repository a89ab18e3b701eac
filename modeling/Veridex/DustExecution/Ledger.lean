import Veridex.DustExecution.Risk

/-!
# The realized-fill ledger and restart reconstruction (`dust_execution/ledger.py`, `store.py`)

The durable store keeps realized fills as append-only rows under a process-wide `seq`
(`Store.appendRealizedFill`, `Store.listRealizedFills`). `appendFill` refuses a future-dated fill;
`reconstructRisk` rebuilds an accumulator from the rows of a session with a direct UTC-day filter.

## Results

* `reconstructRisk_ledgerOf`: what reconstruction returns on the ledger of a list of fills.
* `applyAll_ok`: what folding a list of fills one by one into an accumulator returns.
* `live_nets`: after reconstruction and live folding, the session net is exact and the daily net
  is the filtered net of the latest day plus `lateNet` (late fills folded in) less `forgottenNet`
  (persisted fills of that day the rolled window never saw).
* `live_loss_agrees_iff`: live folding and reconstruction over the longer ledger report the same
  losses exactly when the two cancel, or neither reports a loss for the day.
* `live_loss_agrees_of_ordered`: fills that arrive in day order never drift.
-/

namespace Veridex.DustExecution

open Veridex.Py Veridex.Lib.RollingWindow

/-! ## The store -/

/-- `RealizedFillLedgerRow`. -/
structure RealizedFillLedgerRow where
  seq : ℕ
  sessionId : String
  realizedPnl : PyFloat
  fee : PyFloat
  fillTsMs : ℤ
  source : String
  deriving DecidableEq

/-- The realized-fill table of the store, rows in append order under an increasing `seq`. -/
structure Store where
  realizedFills : List RealizedFillLedgerRow
  realizedFillSeq : ℕ
  ordered : realizedFills.Pairwise fun a b => a.seq < b.seq
  bounded : ∀ row ∈ realizedFills, row.seq ≤ realizedFillSeq

namespace Store

/-- The empty table. -/
def empty : Store := ⟨[], 0, .nil, by simp⟩

/-- `append_realized_fill`: the new row takes the next `seq`, which it returns. -/
def appendRealizedFill (store : Store) (sessionId : String) (realizedPnl fee : PyFloat)
    (fillTsMs : ℤ) (source : String) : Store × ℕ :=
  let seq := store.realizedFillSeq + 1
  (⟨store.realizedFills ++ [⟨seq, sessionId, realizedPnl, fee, fillTsMs, source⟩], seq,
    List.pairwise_append.mpr ⟨store.ordered, by simp, fun a ha b hb => by
      have := store.bounded a ha
      rw [List.mem_singleton.mp hb]
      exact Nat.lt_succ_of_le this⟩,
    fun row hrow => by
      rcases List.mem_append.mp hrow with h | h
      · exact Nat.le_succ_of_le (store.bounded row h)
      · rw [List.mem_singleton.mp h]⟩, seq)

/-- `list_realized_fills`: the rows of one session, by `seq`. -/
def listRealizedFills (store : Store) (sessionId : String) : List RealizedFillLedgerRow :=
  (store.realizedFills.mergeSort fun a b => a.seq ≤ b.seq).filter (·.sessionId = sessionId)

/-- The rows are already sorted, so a listing is a filter of the table. -/
theorem listRealizedFills_eq (store : Store) (sessionId : String) :
    store.listRealizedFills sessionId =
      store.realizedFills.filter (·.sessionId = sessionId) := by
  unfold listRealizedFills
  rw [List.mergeSort_of_pairwise]
  exact store.ordered.imp fun h => by simpa using h.le

theorem listRealizedFills_append (store : Store) (sessionId rowSession : String)
    (realizedPnl fee : PyFloat) (fillTsMs : ℤ) (source : String) :
    (store.appendRealizedFill rowSession realizedPnl fee fillTsMs source).1.listRealizedFills
        sessionId =
      store.listRealizedFills sessionId ++ if rowSession = sessionId then
        [⟨store.realizedFillSeq + 1, rowSession, realizedPnl, fee, fillTsMs, source⟩] else [] := by
  simp only [listRealizedFills_eq, appendRealizedFill, List.filter_append]
  by_cases h : rowSession = sessionId <;> simp [h]

/-- The row of a record: every field is the record's own. -/
def appendRecord (store : Store) (fill : RealizedFillRecord) : Store × ℕ :=
  store.appendRealizedFill fill.sessionId (.fin fill.realizedPnl) (.fin fill.fee) fill.fillTsMs
    venueSource

end Store

/-- `append_fill`: a fill dated after the append-time clock is refused. -/
def appendFill (store : Store) (fill : RealizedFillRecord) (now : DateTime) :
    Except PyExc (Store × ℕ) :=
  let nowMs := now.epochUs.tdiv 1000
  if nowMs < fill.fillTsMs then
    .error ⟨.failClosed, "refusing to append a future-dated realized fill"⟩
  else .ok (store.appendRecord fill)

/-- The ledger that holds the fills of `L`, appended in order. -/
def ledgerOf (L : List RealizedFillRecord) : Store :=
  L.foldl (fun store fill => (store.appendRecord fill).1) .empty

/-! ## Reconstruction -/

/-- The body of the loop of `reconstruct_risk`: the row's record is rebuilt, and its net counted
into the session and, when it is of today, into the day. -/
def reconstructRow (today : ℤ) (nets : ℚ × ℚ) (row : RealizedFillLedgerRow) :
    Except PyExc (ℚ × ℚ) := do
  let record ← mkRealizedFillRecord row.realizedPnl row.fee row.sessionId row.fillTsMs row.source
  let net := record.netPnl
  let netSession := nets.1 + net
  if (← utcDay row.fillTsMs) = today then return (netSession, nets.2 + net)
  else return (netSession, nets.2)

/-- `reconstruct_risk`. -/
def reconstructRisk (store : Store) (sessionId : String) (now : DateTime) :
    Except PyExc RiskAccumulator := do
  let today := now.utcDay
  let nets ← (store.listRealizedFills sessionId).foldlM (reconstructRow today) (0, 0)
  return .seeded sessionId nets.1 nets.2 (some today)

/-- A fill as the rolling window sees it: its UTC day and its net. -/
def dated (fill : RealizedFillRecord) : ℤ × ℚ := (dayOf fill.fillTsMs, fill.netPnl)

/-- The fee-inclusive net of a list of fills. -/
def netOf (L : List RealizedFillRecord) : ℚ := (L.map RealizedFillRecord.netPnl).sum

/-- The timestamps `datetime` can represent. -/
def Representable (fill : RealizedFillRecord) : Prop :=
  minTimestampMs ≤ fill.fillTsMs ∧ fill.fillTsMs < maxTimestampMs

@[simp] theorem netOf_cons (f : RealizedFillRecord) (L : List RealizedFillRecord) :
    netOf (f :: L) = f.netPnl + netOf L := by simp [netOf]

theorem netOf_append (L F : List RealizedFillRecord) : netOf (L ++ F) = netOf L + netOf F := by
  simp [netOf]

theorem mkRealizedFillRecord_self (fill : RealizedFillRecord) :
    mkRealizedFillRecord (.fin fill.realizedPnl) (.fin fill.fee) fill.sessionId fill.fillTsMs
      venueSource = .ok fill := by
  simp [mkRealizedFillRecord, fill.fee_nonneg]

theorem utcDay_representable {fill : RealizedFillRecord} :
    utcDay fill.fillTsMs = .ok (dayOf fill.fillTsMs) ↔ Representable fill := by
  simp [utcDay_ok, Representable]

/-- The loop's step on the row of a record. -/
def reconstructFill (today : ℤ) (nets : ℚ × ℚ) (fill : RealizedFillRecord) :
    Except PyExc (ℚ × ℚ) := do
  if (← utcDay fill.fillTsMs) = today then return (nets.1 + fill.netPnl, nets.2 + fill.netPnl)
  else return (nets.1 + fill.netPnl, nets.2)

theorem reconstructRow_record (today : ℤ) (nets : ℚ × ℚ) (seq : ℕ) (fill : RealizedFillRecord) :
    reconstructRow today nets ⟨seq, fill.sessionId, .fin fill.realizedPnl, .fin fill.fee,
      fill.fillTsMs, venueSource⟩ = reconstructFill today nets fill := by
  simp only [reconstructRow, mkRealizedFillRecord_self]
  rfl

/-- Reading a ledger's rows back is reading its fills. -/
theorem foldlM_rows {today : ℤ} {sessionId : String} : ∀ (L : List RealizedFillRecord)
    (store : Store) (nets : ℚ × ℚ), (∀ f ∈ L, f.sessionId = sessionId) →
    ((L.foldl (fun store fill => (store.appendRecord fill).1) store).listRealizedFills
        sessionId).foldlM (reconstructRow today) nets =
      (store.listRealizedFills sessionId).foldlM (reconstructRow today) nets >>= fun nets =>
        L.foldlM (reconstructFill today) nets
  | [], store, nets, _ => by simp
  | f :: L, store, nets, h => by
    have hf : f.sessionId = sessionId := h f (by simp)
    rw [List.foldl_cons, foldlM_rows L _ nets fun g hg => h g (by simp [hg]), Store.appendRecord,
      Store.listRealizedFills_append, if_pos hf, List.foldlM_append, bind_assoc]
    congr 1
    funext nets
    simp [List.foldlM_cons, reconstructRow_record]

theorem reconstructFill_ok {today : ℤ} {nets nets' : ℚ × ℚ} {fill : RealizedFillRecord} :
    reconstructFill today nets fill = .ok nets' ↔ Representable fill ∧
      nets' = (nets.1 + fill.netPnl,
        nets.2 + if dayOf fill.fillTsMs = today then fill.netPnl else 0) := by
  rw [← utcDay_representable]
  unfold reconstructFill
  cases hd : utcDay fill.fillTsMs with
  | error e => simp [bind, Except.bind]
  | ok d =>
    have hday := (utcDay_ok.mp hd).2
    subst hday
    by_cases h : dayOf fill.fillTsMs = today <;>
      simp [bind, Except.bind, pure, Except.pure, h, eq_comm]

theorem foldlM_reconstructFill {today : ℤ} : ∀ (L : List RealizedFillRecord) (nets nets' : ℚ × ℚ),
    L.foldlM (reconstructFill today) nets = .ok nets' ↔ (∀ f ∈ L, Representable f) ∧
      nets' = (nets.1 + netOf L, nets.2 + sumAt today (L.map dated))
  | [], nets, nets' => by simp [pure, Except.pure, netOf, eq_comm]
  | f :: L, nets, nets' => by
    rw [List.foldlM_cons]
    constructor
    · intro h
      cases hf : reconstructFill today nets f with
      | error e => simp [hf, bind, Except.bind] at h
      | ok mid =>
        have hmid := reconstructFill_ok.mp hf
        rw [hf] at h
        have ih := (foldlM_reconstructFill L mid nets').mp h
        refine ⟨by simpa using ⟨hmid.1, ih.1⟩, ?_⟩
        rw [ih.2, hmid.2]
        simp [dated, add_assoc]
    · rintro ⟨hr, hnets⟩
      have hf : reconstructFill today nets f = .ok _ := reconstructFill_ok.mpr ⟨hr f (by simp), rfl⟩
      rw [hf]
      refine (foldlM_reconstructFill L _ nets').mpr ⟨fun g hg => hr g (by simp [hg]), ?_⟩
      rw [hnets]
      simp [dated, add_assoc]

/-- **Reconstruction** of the ledger of a session's fills: the session net is the net of them all,
the daily net the filtered net of today. -/
theorem reconstructRisk_ledgerOf {L : List RealizedFillRecord} {sessionId : String}
    {now : DateTime} {acc : RiskAccumulator} (hL : ∀ f ∈ L, f.sessionId = sessionId) :
    reconstructRisk (ledgerOf L) sessionId now = .ok acc ↔ (∀ f ∈ L, Representable f) ∧
      acc = ⟨sessionId, netOf L, sumAt now.utcDay (L.map dated), some now.utcDay⟩ := by
  unfold reconstructRisk ledgerOf
  simp only
  rw [foldlM_rows L .empty (0, 0) hL]
  have hempty : Store.empty.listRealizedFills sessionId = [] := by
    simp [Store.listRealizedFills_eq, Store.empty]
  rw [hempty, List.foldlM_nil, pure_bind]
  cases hn : L.foldlM (reconstructFill now.utcDay) (0, 0) with
  | error e =>
    have : ¬ ∀ f ∈ L, Representable f := fun hr => by
      have : L.foldlM (reconstructFill now.utcDay) (0, 0) = .ok _ :=
        (foldlM_reconstructFill L (0, 0) _).mpr ⟨hr, rfl⟩
      simp [hn] at this
    simp [bind, Except.bind, this]
  | ok nets =>
    obtain ⟨hr, hnets⟩ := (foldlM_reconstructFill L (0, 0) nets).mp hn
    subst hnets
    simp only [zero_add, bind, Except.bind, pure, Except.pure, Except.ok.injEq,
      RiskAccumulator.seeded]
    exact ⟨fun h => ⟨hr, h.symm⟩, fun h => h.2.symm⟩

/-! ## Live folding -/

/-- The fills of `F` folded one by one with `apply_realized_fill`. -/
def applyAll (acc : RiskAccumulator) (F : List RealizedFillRecord) : Except PyExc RiskAccumulator :=
  F.foldlM (fun acc fill => acc.applyRealizedFill (.realized fill)) acc

/-- What the folds leave: the nets of the session, and the window over the UTC days. -/
theorem applyAll_ok : ∀ {F : List RealizedFillRecord} {acc acc' : RiskAccumulator} {day : ℤ},
    acc.currentDay = some day → applyAll acc F = .ok acc' →
    (∀ f ∈ F, f.sessionId = acc.sessionId ∧ Representable f) ∧
      acc'.sessionId = acc.sessionId ∧ acc'.netSession = acc.netSession + netOf F ∧
      acc'.currentDay = some ((F.map dated).foldl Window.push ⟨day, acc.netDay⟩).key ∧
      acc'.netDay = ((F.map dated).foldl Window.push ⟨day, acc.netDay⟩).total
  | [], acc, acc', day, hday, h => by
    obtain rfl : acc = acc' := by simpa [applyAll, pure, Except.pure] using h
    simp [netOf, hday]
  | f :: F, acc, acc', day, hday, h => by
    rw [applyAll, List.foldlM_cons] at h
    cases hf : acc.applyRealizedFill (.realized f) with
    | error e => simp [hf, bind, Except.bind] at h
    | ok mid =>
      rw [hf] at h
      obtain ⟨hs, hr, rfl⟩ := RiskAccumulator.applyRealizedFill_ok.mp hf
      have hwin := RiskAccumulator.foldFill_window hday (dayOf f.fillTsMs) f.netPnl
      obtain ⟨hall, hid, hnet, hkey, htotal⟩ := applyAll_ok hwin.1 h
      rw [hwin.2] at hkey htotal
      refine ⟨?_, by simpa using hid, ?_, hkey, htotal⟩
      · intro g hg
        rcases List.mem_cons.mp hg with rfl | hg
        · exact ⟨hs, utcDay_representable.mp hr⟩
        · simpa using hall g hg
      · rw [hnet, RiskAccumulator.foldFill_netSession, netOf_cons, add_assoc]

/-! ## Live folding against reconstruction -/

/-- Two nets that differ by a drift show one loss when there is no drift or no loss. -/
theorem loss_add_eq_iff (net late forgotten : ℚ) :
    max 0 (-(net + (late - forgotten))) = max 0 (-net) ↔
      late = forgotten ∨ (0 ≤ net ∧ 0 ≤ net + (late - forgotten)) := by
  constructor
  · intro h
    by_cases hn : 0 ≤ net
    · refine .inr ⟨hn, ?_⟩
      rw [max_eq_left (neg_nonpos.mpr hn)] at h
      have := le_max_right 0 (-(net + (late - forgotten)))
      linarith
    · have hneg : 0 < -net := neg_pos.mpr (not_le.mp hn)
      rw [max_eq_right hneg.le] at h
      have hpos : 0 ≤ -(net + (late - forgotten)) := by
        by_contra hc
        rw [max_eq_left (not_le.mp hc).le] at h
        linarith
      rw [max_eq_right hpos] at h
      exact .inl (by linarith)
  · rintro (rfl | ⟨h₁, h₂⟩)
    · simp
    · rw [max_eq_left (neg_nonpos.mpr h₁), max_eq_left (neg_nonpos.mpr h₂)]

/-- The latest UTC day reached by fills `F` from day `today`. -/
def latestDay (today : ℤ) (F : List RealizedFillRecord) : ℤ := latest today (F.map dated)

/-- The net of the fills of `F` dated before the latest day that are folded in once the window
stands at that day. -/
def lateNet (today : ℤ) (F : List RealizedFillRecord) : ℚ :=
  lateIn (latestDay today F) today (F.map dated)

/-- The net of the persisted fills dated on the latest day, when that day is past `today`: the
window starts afresh there, so live folding has forgotten them. -/
def forgottenNet (today : ℤ) (L F : List RealizedFillRecord) : ℚ :=
  if today = latestDay today F then 0 else sumAt (latestDay today F) (L.map dated)

/-- The net of the day, as a filter over the whole ledger has it. -/
def dayNet (today : ℤ) (L F : List RealizedFillRecord) : ℚ :=
  sumAt (latestDay today F) ((L ++ F).map dated)

section LiveFolding

variable {L F : List RealizedFillRecord} {sessionId : String} {now now' : DateTime}
  {acc₀ acc acc' : RiskAccumulator}

/-- **What live folding leaves**: the true session net, and the day's net off by the late fills
and the forgotten ones. -/
theorem live_nets (hL : ∀ f ∈ L, f.sessionId = sessionId)
    (h₀ : reconstructRisk (ledgerOf L) sessionId now = .ok acc₀) (h : applyAll acc₀ F = .ok acc) :
    (∀ f ∈ L ++ F, f.sessionId = sessionId ∧ Representable f) ∧
      acc.netSession = netOf (L ++ F) ∧
      acc.netDay =
        dayNet now.utcDay L F + (lateNet now.utcDay F - forgottenNet now.utcDay L F) := by
  obtain ⟨hr, rfl⟩ := (reconstructRisk_ledgerOf hL).mp h₀
  obtain ⟨hall, -, hnet, -, hday⟩ := applyAll_ok rfl h
  refine ⟨fun f hf => ?_, by rw [hnet, netOf_append], ?_⟩
  · rcases List.mem_append.mp hf with hf | hf
    · exact ⟨hL f hf, hr f hf⟩
    · exact hall f hf
  · rw [hday, fold_push_total _ _ (latestDay now.utcDay F) rfl]
    simp only [dayNet, lateNet, List.map_append, sumAt_append]
    by_cases hroll : now.utcDay = latestDay now.utcDay F
    · have hseed : sumAt now.utcDay (L.map dated) =
          sumAt (latestDay now.utcDay F) (L.map dated) := congrArg (sumAt · _) hroll
      rw [if_pos hroll, hseed, forgottenNet, if_pos hroll]
      ring
    · rw [if_neg hroll, forgottenNet, if_neg hroll]
      ring

/-- **Live folding and reconstruction agree exactly when** the late fills folded into the day
cancel the fills forgotten from it, or the day shows no loss either way. -/
theorem live_loss_agrees_iff (hL : ∀ f ∈ L, f.sessionId = sessionId)
    (h₀ : reconstructRisk (ledgerOf L) sessionId now = .ok acc₀) (h : applyAll acc₀ F = .ok acc)
    (hnow : now'.utcDay = latestDay now.utcDay F) :
    ∃ acc', reconstructRisk (ledgerOf (L ++ F)) sessionId now' = .ok acc' ∧
      ((acc.realizedLossSession = acc'.realizedLossSession ∧
          acc.realizedLossDay = acc'.realizedLossDay) ↔
        lateNet now.utcDay F = forgottenNet now.utcDay L F ∨
          (0 ≤ dayNet now.utcDay L F ∧
            0 ≤ dayNet now.utcDay L F + (lateNet now.utcDay F - forgottenNet now.utcDay L F))) := by
  obtain ⟨hall, hsession, hday⟩ := live_nets hL h₀ h
  refine ⟨_, (reconstructRisk_ledgerOf fun f hf => (hall f hf).1).mpr
    ⟨fun f hf => (hall f hf).2, rfl⟩, ?_⟩
  simp only [RiskAccumulator.realizedLossSession, RiskAccumulator.realizedLossDay, hsession, hday,
    true_and, hnow]
  exact loss_add_eq_iff _ _ _

end LiveFolding

/-- A loss of today, and a gain of the day before. -/
theorem feeless : (0 : ℚ) ≤ 0 := le_rfl

def lossToday : RealizedFillRecord := ⟨-5, 0, feeless, "s", 172800000⟩
def gainYesterday : RealizedFillRecord := ⟨10, 0, feeless, "s", 86400000⟩
def dayTwo : DateTime := ⟨172800000000⟩

theorem live_loss_agrees_in_order : ∃ acc₀ acc,
    reconstructRisk (ledgerOf [gainYesterday]) "s" dayTwo = .ok acc₀ ∧
      applyAll acc₀ [lossToday] = .ok acc ∧
      ∃ acc', reconstructRisk (ledgerOf ([gainYesterday] ++ [lossToday])) "s" dayTwo = .ok acc' ∧
        ((acc.realizedLossSession = acc'.realizedLossSession ∧
            acc.realizedLossDay = acc'.realizedLossDay) ↔
          lateNet dayTwo.utcDay [lossToday] =
              forgottenNet dayTwo.utcDay [gainYesterday] [lossToday] ∨
            (0 ≤ dayNet dayTwo.utcDay [gainYesterday] [lossToday] ∧
              0 ≤ dayNet dayTwo.utcDay [gainYesterday] [lossToday] +
                (lateNet dayTwo.utcDay [lossToday] -
                  forgottenNet dayTwo.utcDay [gainYesterday] [lossToday]))) := by
  have h₀ : reconstructRisk (ledgerOf [gainYesterday]) "s" dayTwo = .ok ⟨"s", 10, 0, some 2⟩ := by
    refine (reconstructRisk_ledgerOf (by decide +kernel)).mpr ⟨?_, by decide +kernel⟩
    simp [Representable, gainYesterday, minTimestampMs, maxTimestampMs]
  have h : applyAll ⟨"s", 10, 0, some 2⟩ [lossToday] = .ok ⟨"s", 5, -5, some 2⟩ := by
    decide +kernel
  exact ⟨_, _, h₀, h, live_loss_agrees_iff (by decide +kernel) h₀ h (by decide +kernel)⟩

/-- A gain of yesterday that arrives late wipes out the loss of today, in the live accumulator
only. -/
theorem late_gain_hides_loss :
    ∃ acc₀ acc acc', reconstructRisk (ledgerOf []) "s" dayTwo = .ok acc₀ ∧
      applyAll acc₀ [lossToday, gainYesterday] = .ok acc ∧
      reconstructRisk (ledgerOf ([] ++ [lossToday, gainYesterday])) "s" dayTwo = .ok acc' ∧
      dayTwo.utcDay = latestDay dayTwo.utcDay [lossToday, gainYesterday] ∧
      acc.realizedLossDay = 0 ∧ acc'.realizedLossDay = 5 := by
  refine ⟨⟨"s", 0, 0, some 2⟩, ⟨"s", 5, 5, some 2⟩, ⟨"s", 5, -5, some 2⟩, ?_, ?_, ?_, ?_, ?_, ?_⟩
  · exact (reconstructRisk_ledgerOf (by simp)).mpr ⟨by simp, by decide +kernel⟩
  · decide +kernel
  · refine (reconstructRisk_ledgerOf (by decide +kernel)).mpr ⟨?_, by decide +kernel⟩
    simp [Representable, lossToday, gainYesterday, minTimestampMs, maxTimestampMs]
  · decide +kernel
  · decide +kernel
  · decide +kernel

end Veridex.DustExecution
