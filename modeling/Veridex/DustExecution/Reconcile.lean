import Veridex.DustExecution.Venue

/-!
# Reconciling an uncertain submit (`reconcile.py`, lines 60-359, `l2_transport.py`, lines 277-342)

`assessUncertainSubmit` asks the three read surfaces of the venue about one order, by its official
key, and reduces the answers to a verdict. A surface that is missing, or that raises an
`Exception`, is no proof of anything; an answer of the wrong shape raises where the source does.

Each surface is asked once, so a run is a function of the three answers: `VenueTruth` holds them,
`VenueTruth.assess` is the verdict over them, and `exec_assessUncertainSubmit` says that this is
what the run returns.

## Results

* `assess_resolved`: what a `resolved` verdict rests on: a terminal status, or a positive fill.
* `assess_ne_definitivelyAbsent`: absence is never concluded.
-/

namespace Veridex.DustExecution

open Veridex.Py Veridex.Lib

/-! ## Fill history -/

/-- `_coerce_fill_amount`. -/
def coerceFillAmount (value : Value) : Except PyExc (Option ℚ) :=
  match value with
  | .none => .ok none
  | value => match value.toFloat with
    | .error e => if e.cls = .typeError ∨ e.cls = .valueError then .ok none else .error e
    | .ok (.fin amount) => .ok (if amount < 0 then none else some amount)
    | .ok _ => .ok none

/-- `matched` and `found`. -/
structure Matched where
  matched : PyFloat := .fin 0
  found : Bool := false

/-- The loop over the maker orders of a trade. `none` is its early return: a component of the order
that is no amount. -/
def matchMakers (textOf : Value → String) (key : String) :
    List Value → Matched → Except PyExc (Option Matched)
  | [], acc => .ok (some acc)
  | maker :: makers, acc => do
    if (← maker.get "order_id" (.str "")).text textOf = key then
      match ← coerceFillAmount (← maker.get "matched_amount") with
      | none => return none
      | some amount => matchMakers textOf key makers ⟨acc.matched.add (.fin amount), true⟩
    else matchMakers textOf key makers acc

/-- The loop over the trades. A trade we are the taker of is not searched for makers. -/
def matchTrades (textOf : Value → String) (key : String) :
    List Value → Matched → Except PyExc (Option Matched)
  | [], acc => .ok (some acc)
  | trade :: trades, acc => do
    if (← trade.get "taker_order_id" (.str "")).text textOf = key then
      match ← coerceFillAmount (← trade.get "size") with
      | none => return none
      | some amount => matchTrades textOf key trades ⟨acc.matched.add (.fin amount), true⟩
    else
      let makers ← ((← trade.get "maker_orders" (.list [])).or (.list [])).iter
      match ← matchMakers textOf key makers acc with
      | none => return none
      | some acc => matchTrades textOf key trades acc

/-- `_match_fill_size`: a finite positive total, or no proof. -/
def matchFillSize (textOf : Value → String) (trades : List Value) (key : String) :
    Except PyExc (Option ℚ) := do
  match ← matchTrades textOf key trades {} with
  | none => return none
  | some acc =>
    match acc.found, acc.matched with
    | true, .fin matched => return if 0 < matched then some matched else none
    | _, _ => return none

/-! ## The three readers, over the answer -/

/-- `_TERMINAL_ORDER_STATUSES`. -/
def terminalOrderStatuses : List String :=
  ["filled", "matched", "killed", "canceled", "cancelled", "expired", "rejected"]

/-- The trades of a page, which is a mapping that holds them or the trades themselves. -/
def tradesOf (page : Value) : Except PyExc Value :=
  if page.isMapping then do
    return ((← page.get "trades").or (← page.get "data")).or (.list [])
  else .ok page

/-- The page part of `_fill_history_evidence`. -/
def filledSize (textOf : Value → String) (page : Value) (key : String) :
    Except PyExc (Option ℚ) := do
  let trades ← tradesOf page
  matchFillSize textOf (← (trades.or (.list [])).iter) key

/-- The record part of `_terminal_status_evidence`. -/
def isTerminalRecord (textOf : Value → String) (record : Value) : Except PyExc Bool := do
  if !record.truthy then return false
  return decide (lower ((← record.get "status" (.str "")).text textOf) ∈ terminalOrderStatuses)

/-- The list part of `_open_candidate_count`. -/
def openCandidates (orders : Value) : Except PyExc ℕ := (orders.or (.list [])).len

/-! ## The verdict -/

/-- `UncertainSubmitVerdict`. -/
structure UncertainSubmitVerdict where
  state : UncertainSubmitState
  venueOrderKey : String
  surfacesQueried : List String
  matchedFillSize : ℚ
  openCandidateCount : ℕ
  deriving DecidableEq

/-- Ask a read surface: `none` when the adapter lacks it or it raises an `Exception`. -/
def readSurface {α : Type} (surface : Option (Surface α Value)) (arg : α)
    (entry : Except PyExc Value → Call) : Lane (Option Value) :=
  match surface with
  | none => pure none
  | some surface => tryCatch (do return some (← ask surface arg entry)) fun e =>
      if e.isException then pure none else throw e

/-- The three readers: ask the surface and read its answer, or settle for `absent`. -/
def evidence {α β : Type} (surface : Option (Surface α Value)) (arg : α)
    (entry : Except PyExc Value → Call) (absent : β) (read : Value → Except PyExc β) :
    Lane β := do
  match ← readSurface surface arg entry with
  | none => return absent
  | some answer => Prog.ofExcept (read answer)

/-- `_open_candidate_count`. -/
def openCandidateCount (adapter : Adapter) : Lane ℕ :=
  evidence adapter.getOrders () .getOrders 0 openCandidates

/-- `_terminal_status_evidence`. -/
def terminalStatusEvidence (adapter : Adapter) (key : String) : Lane Bool :=
  evidence adapter.getOrder key (.getOrder key) false (isTerminalRecord adapter.textOf)

/-- `_fill_history_evidence`. -/
def fillHistoryEvidence (adapter : Adapter) (key : String) : Lane (Option ℚ) :=
  evidence adapter.getFillHistory key (.getFillHistory key) none
    (filledSize adapter.textOf · key)

/-- The verdict over the evidence. -/
def verdictOf (key : String) (candidateCount : ℕ) (terminal : Bool) (matchedSize : Option ℚ) :
    UncertainSubmitVerdict :=
  ⟨if matchedSize.isSome || terminal then .resolved else .ambiguous, key,
    ["get_orders", "get_order", "get_fill_history"], matchedSize.getD 0, candidateCount⟩

/-- `assess_uncertain_submit`. -/
def assessUncertainSubmit (adapter : Adapter) (presubmitRecord : PreSubmitRecord) :
    Lane UncertainSubmitVerdict := do
  let key := presubmitRecord.venueOrderKey
  if key = "" then return ⟨.ambiguous, key, [], 0, 0⟩
  else do
    let candidateCount ← openCandidateCount adapter
    let terminal ← terminalStatusEvidence adapter key
    let matchedSize ← fillHistoryEvidence adapter key
    return verdictOf key candidateCount terminal matchedSize

/-! ## The answers of one run -/

/-- The answers of the three surfaces, `none` for a surface the adapter lacks. -/
structure VenueTruth where
  orders : Option (Except PyExc Value)
  order : Option (Except PyExc Value)
  fills : Option (Except PyExc Value)

/-- An answer as its reader sees it. -/
def guarded : Option (Except PyExc Value) → Except PyExc (Option Value)
  | none => .ok none
  | some (.ok answer) => .ok (some answer)
  | some (.error e) => if e.isException then .ok none else .error e

/-- The history with an answer's call, if one was made. -/
def answered (entry : Except PyExc Value → Call) (history : List Call) :
    Option (Except PyExc Value) → List Call
  | none => history
  | some answer => history ++ [entry answer]

/-- What the surfaces answer in a run of `assessUncertainSubmit`, one after the other. -/
def venueTruth (adapter : Adapter) (key : String) (history : List Call) : VenueTruth :=
  let orders := adapter.getOrders.map (· history ())
  let history := answered .getOrders history orders
  let order := adapter.getOrder.map (· history key)
  let history := answered (.getOrder key) history order
  ⟨orders, order, adapter.getFillHistory.map (· history key)⟩

/-- What a reader makes of an answer. -/
def evidenceOf {β : Type} (absent : β) (read : Value → Except PyExc β)
    (answer : Option (Except PyExc Value)) : Except PyExc β := do
  match ← guarded answer with
  | none => return absent
  | some answer => read answer

/-- The verdict over three answers. -/
def VenueTruth.assess (truth : VenueTruth) (textOf : Value → String) (key : String) :
    Except PyExc UncertainSubmitVerdict := do
  let candidateCount ← evidenceOf 0 openCandidates truth.orders
  let terminal ← evidenceOf false (isTerminalRecord textOf) truth.order
  let matchedSize ← evidenceOf none (filledSize textOf · key) truth.fills
  return verdictOf key candidateCount terminal matchedSize

section Runs

variable {α β : Type} {adapter : Adapter} {key : String} {w : World} {P : Call → Prop}

theorem exec_readSurface (surface : Option (Surface α Value)) (arg : α)
    (entry : Except PyExc Value → Call) (w : World) :
    (readSurface surface arg entry).exec w =
      (guarded (surface.map (· w.history arg)),
        { w with history := answered entry w.history (surface.map (· w.history arg)) }) := by
  cases surface with
  | none => rfl
  | some surface =>
    simp only [readSurface, Option.map_some, answered]
    rw [Prog.exec_tryCatch, Prog.exec_bind, exec_ask]
    cases surface w.history arg with
    | ok answer => rfl
    | error e =>
      simp only [guarded]
      split_ifs <;> rfl

theorem exec_evidence (surface : Option (Surface α Value)) (arg : α)
    (entry : Except PyExc Value → Call) (absent : β) (read : Value → Except PyExc β) (w : World) :
    (evidence surface arg entry absent read).exec w =
      (evidenceOf absent read (surface.map (· w.history arg)),
        { w with history := answered entry w.history (surface.map (· w.history arg)) }) := by
  unfold evidence evidenceOf
  rw [Prog.exec_bind, exec_readSurface]
  cases guarded (surface.map (· w.history arg)) with
  | error e => rfl
  | ok answer =>
    cases answer with
    | none => rfl
    | some answer => simp [Prog.exec_ofExcept, bind, Except.bind]

/-- **A run of the assessment returns the verdict over its three answers.** -/
theorem exec_assessUncertainSubmit (adapter : Adapter) (record : PreSubmitRecord) (w : World) :
    ((assessUncertainSubmit adapter record).exec w).1 =
      if record.venueOrderKey = "" then .ok ⟨.ambiguous, record.venueOrderKey, [], 0, 0⟩
      else (venueTruth adapter record.venueOrderKey w.history).assess adapter.textOf
        record.venueOrderKey := by
  unfold assessUncertainSubmit
  simp only
  split_ifs with hkey
  · rfl
  · unfold openCandidateCount terminalStatusEvidence fillHistoryEvidence VenueTruth.assess
    rw [Prog.exec_bind, exec_evidence]
    simp only [venueTruth]
    cases evidenceOf 0 openCandidates (adapter.getOrders.map (· w.history ())) with
    | error e => rfl
    | ok candidateCount =>
      simp only [Prog.exec_bind (evidence adapter.getOrder _ _ _ _), exec_evidence]
      cases evidenceOf false (isTerminalRecord adapter.textOf) (adapter.getOrder.map
          (· (answered .getOrders w.history (adapter.getOrders.map (· w.history ())))
            record.venueOrderKey)) with
      | error e => rfl
      | ok terminal =>
        simp only [Prog.exec_bind, exec_evidence]
        cases evidenceOf none (filledSize adapter.textOf · record.venueOrderKey) _ <;> rfl

section Kept

variable {R : World → World → Prop} [Std.Refl R] [IsTrans World R]

theorem keeps_readSurface {arg : α} {entry : Except PyExc Value → Call}
    (hask : ∀ surface : Surface α Value, Prog.Keeps R (ask surface arg entry))
    (surface : Option (Surface α Value)) : Prog.Keeps R (readSurface surface arg entry) := by
  unfold readSurface
  cases surface with
  | none => exact Prog.keeps_pure _
  | some surface =>
    refine Prog.keeps_tryCatch
      (Prog.keeps_bind (hask surface) fun _ => Prog.keeps_pure _) fun e => ?_
    split_ifs
    · exact Prog.keeps_pure _
    · exact Prog.keeps_throw _

theorem keeps_evidence {arg : α} {entry : Except PyExc Value → Call}
    (hask : ∀ surface : Surface α Value, Prog.Keeps R (ask surface arg entry))
    (surface : Option (Surface α Value)) (absent : β) (read : Value → Except PyExc β) :
    Prog.Keeps R (evidence surface arg entry absent read) := by
  refine Prog.keeps_bind (keeps_readSurface hask surface) fun answer => ?_
  cases answer with
  | none => exact Prog.keeps_pure _
  | some answer => exact Prog.keeps_ofExcept _

/-- **An assessment** keeps what its three reads keep. -/
theorem keeps_assessUncertainSubmit
    (horders : ∀ surface : Surface Unit Value, Prog.Keeps R (ask surface () .getOrders))
    (horder : ∀ (surface : Surface String Value) (key : String),
      Prog.Keeps R (ask surface key (.getOrder key)))
    (hfills : ∀ (surface : Surface String Value) (key : String),
      Prog.Keeps R (ask surface key (.getFillHistory key)))
    (adapter : Adapter) (record : PreSubmitRecord) :
    Prog.Keeps R (assessUncertainSubmit adapter record) := by
  unfold assessUncertainSubmit
  simp only
  split_ifs
  · exact Prog.keeps_pure _
  · refine Prog.keeps_bind (keeps_evidence horders _ _ _) fun candidateCount => ?_
    refine Prog.keeps_bind (keeps_evidence (horder · _) _ _ _) fun terminal => ?_
    refine Prog.keeps_bind (keeps_evidence (hfills · _) _ _ _) fun matchedSize => ?_
    exact Prog.keeps_pure _

end Kept

/-- An assessment reads, and does nothing else. -/
theorem quiet_assessUncertainSubmit (adapter : Adapter) (record : PreSubmitRecord) :
    Prog.Keeps Quiet (assessUncertainSubmit adapter record) :=
  keeps_assessUncertainSubmit (fun _ => quiet_ask fun _ => rfl) (fun _ _ => quiet_ask fun _ => rfl)
    (fun _ _ => quiet_ask fun _ => rfl) adapter record

end Runs

/-! ## What a verdict rests on -/

section Verdict

variable {truth : VenueTruth} {textOf : Value → String} {key : String}
  {verdict : UncertainSubmitVerdict}

/-- **A verdict is a verdict over the evidence**: each surface was read, or gave no proof. -/
theorem assess_ok : truth.assess textOf key = .ok verdict ↔ ∃ candidateCount terminal matchedSize,
    evidenceOf 0 openCandidates truth.orders = .ok candidateCount ∧
      evidenceOf false (isTerminalRecord textOf) truth.order = .ok terminal ∧
      evidenceOf none (filledSize textOf · key) truth.fills = .ok matchedSize ∧
      verdict = verdictOf key candidateCount terminal matchedSize := by
  unfold VenueTruth.assess
  cases evidenceOf 0 openCandidates truth.orders with
  | error e => simp [bind, Except.bind]
  | ok candidateCount =>
    cases evidenceOf false (isTerminalRecord textOf) truth.order with
    | error e => simp [bind, Except.bind]
    | ok terminal =>
      cases evidenceOf none (filledSize textOf · key) truth.fills with
      | error e => simp [bind, Except.bind]
      | ok matchedSize => simp [bind, Except.bind, pure, Except.pure, eq_comm]

/-- A matched size is positive. -/
theorem matchFillSize_pos {trades : List Value} {size : ℚ}
    (h : matchFillSize textOf trades key = .ok (some size)) : 0 < size := by
  unfold matchFillSize at h
  cases hm : matchTrades textOf key trades {} with
  | error e => simp [hm, bind, Except.bind] at h
  | ok acc =>
    cases acc with
    | none => simp [hm, bind, Except.bind, pure, Except.pure] at h
    | some acc =>
      obtain ⟨matched, found⟩ := acc
      cases found with
      | false => simp [hm, bind, Except.bind, pure, Except.pure] at h
      | true =>
        cases matched with
        | nan | negInf | posInf => simp [hm, bind, Except.bind, pure, Except.pure] at h
        | fin matched =>
          simp only [hm, bind, Except.bind, pure, Except.pure, Except.ok.injEq] at h
          split_ifs at h with hpos
          obtain rfl := Option.some.inj h
          exact hpos

theorem filledSize_pos {page : Value} {size : ℚ}
    (h : filledSize textOf page key = .ok (some size)) : 0 < size := by
  unfold filledSize at h
  cases ht : tradesOf page with
  | error e => simp [ht, bind, Except.bind] at h
  | ok trades =>
    cases hi : (trades.or (.list [])).iter with
    | error e => simp [ht, hi, bind, Except.bind] at h
    | ok items =>
      simp only [ht, hi, bind, Except.bind] at h
      exact matchFillSize_pos h

/-- **A proof of a fill comes from an answered page.** -/
theorem evidenceOf_fills {size : ℚ} :
    evidenceOf none (filledSize textOf · key) truth.fills = .ok (some size) ↔
      ∃ page, truth.fills = some (.ok page) ∧ filledSize textOf page key = .ok (some size) := by
  unfold evidenceOf guarded
  cases truth.fills with
  | none => simp [bind, Except.bind, pure, Except.pure]
  | some answer =>
    cases answer with
    | ok page => simp [bind, Except.bind]
    | error e =>
      simp only [Option.some.injEq, reduceCtorEq, false_and, exists_false, iff_false]
      split_ifs <;> simp [bind, Except.bind, pure, Except.pure]

/-- **A proof of a terminal status comes from an answered record.** -/
theorem evidenceOf_order :
    evidenceOf false (isTerminalRecord textOf) truth.order = .ok true ↔
      ∃ record, truth.order = some (.ok record) ∧ isTerminalRecord textOf record = .ok true := by
  unfold evidenceOf guarded
  cases truth.order with
  | none => simp [bind, Except.bind, pure, Except.pure]
  | some answer =>
    cases answer with
    | ok record => simp [bind, Except.bind]
    | error e =>
      simp only [Option.some.injEq, reduceCtorEq, false_and, exists_false, iff_false]
      split_ifs <;> simp [bind, Except.bind, pure, Except.pure]

/-- **`resolved`** rests on a terminal status or a positive fill, and on nothing else. -/
theorem assess_resolved (h : truth.assess textOf key = .ok verdict) :
    verdict.state = .resolved ↔
      (∃ record, truth.order = some (.ok record) ∧ isTerminalRecord textOf record = .ok true) ∨
      ∃ page size, truth.fills = some (.ok page) ∧ filledSize textOf page key = .ok (some size) := by
  obtain ⟨candidateCount, terminal, matchedSize, -, hterminal, hmatched, rfl⟩ := assess_ok.mp h
  have horder : evidenceOf false (isTerminalRecord textOf) truth.order = .ok true ↔ _ :=
    evidenceOf_order
  have hfills (size : ℚ) : evidenceOf none (filledSize textOf · key) truth.fills =
      .ok (some size) ↔ _ := evidenceOf_fills
  rw [hterminal] at horder
  simp only [hmatched] at hfills
  rw [← horder]
  have hpage : (∃ page size, truth.fills = some (.ok page) ∧
      filledSize textOf page key = .ok (some size)) ↔ matchedSize.isSome = true := by
    rw [Option.isSome_iff_exists]
    constructor
    · rintro ⟨page, size, hp⟩
      exact ⟨size, Except.ok.inj ((hfills size).mpr ⟨page, hp⟩)⟩
    · rintro ⟨size, rfl⟩
      obtain ⟨page, hp⟩ := (hfills size).mp rfl
      exact ⟨page, size, hp⟩
  rw [hpage]
  cases terminal <;> cases matchedSize <;> simp [verdictOf]

/-- **Absence is never concluded.** -/
theorem assess_ne_definitivelyAbsent (h : truth.assess textOf key = .ok verdict) :
    verdict.state ≠ .definitivelyAbsent := by
  obtain ⟨candidateCount, terminal, matchedSize, -, -, -, rfl⟩ := assess_ok.mp h
  unfold verdictOf
  split_ifs <;> simp

end Verdict

end Veridex.DustExecution
