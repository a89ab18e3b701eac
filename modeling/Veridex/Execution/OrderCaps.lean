import Veridex.Execution.SealedLane

/-!
# The caps on the orders of a run

An order is placed when it is submitted, or when a dry run makes the receipt of one (`Places`). The log
of a run is the lane's, followed by those of the approvals (`Resolved`); a clock dates its entries.

The first gate counts what it is told. The lane tells it of its own orders, and never of the session's,
of the day's or of the seconds since the last; an approval tells it of none.

Results: `order_caps_bind`, and `session_cap_passed`: two orders of one session under a cap of one.
-/

namespace Veridex.Execution

open Veridex.Py Veridex.Lib Veridex.Runtime Veridex.Scoring Veridex.Policy Veridex.Strategies
open Veridex.Venues Dialogue

/-! ## The orders of a log -/

/-- A question that places an order. -/
def Await.Places : Await → Prop
  | .submitOrder _ => True
  | .normalizeReceipt _ _ _ mode => mode = "dry_run"
  | _ => False

instance : DecidablePred Await.Places
  | .submitOrder _ => .isTrue trivial
  | .normalizeReceipt _ _ _ mode => inferInstanceAs (Decidable (mode = "dry_run"))
  | .quoteMarket _ _ | .getOrderStatus _ | .sleep | .broadcast _ | .appendExecutionRecord _ =>
    .isFalse id

/-- How many orders were placed. -/
def placed (log : AwaitLog) : ℕ := log.countP fun entry => entry.1.Places

/-- When they were, in the order of the log. -/
def placedAt (clock : ℕ → ℚ) : AwaitLog → ℕ → List ℚ
  | [], _ => []
  | entry :: log, n =>
    if entry.1.Places then clock n :: placedAt clock log (n + 1) else placedAt clock log (n + 1)

/-- A question that is asked when the first gate has passed. -/
def Await.Quotes : Await → Prop
  | .quoteMarket _ _ => True
  | _ => False

/-- The log stood at `gate` when the gate was last passed. -/
def GatedAt (gate log : AwaitLog) : Prop :=
  ∃ quote between, log = gate ++ quote :: between ∧ quote.1.Quotes ∧
    ∀ entry ∈ between, ¬ entry.1.Quotes

@[simp] theorem placed_snoc (log : AwaitLog) (entry : Await × Except PyExc Answer) :
    placed (log ++ [entry]) = placed log + if entry.1.Places then 1 else 0 := by
  simp [placed, List.countP_append, List.countP_cons]

theorem placed_append (log log' : AwaitLog) : placed (log ++ log') = placed log + placed log' :=
  List.countP_append ..

theorem placedAt_append (clock : ℕ → ℚ) (log log' : AwaitLog) : ∀ n,
    placedAt clock (log ++ log') n = placedAt clock log n ++ placedAt clock log' (n + log.length) := by
  induction log with
  | nil => exact fun n => rfl
  | cons entry log ih =>
    intro n
    rw [List.cons_append, placedAt, placedAt, ih, List.length_cons, Nat.add_right_comm n 1,
      ← Nat.add_assoc]
    split_ifs <;> rfl

theorem length_placedAt (clock : ℕ → ℚ) (log : AwaitLog) : ∀ n,
    (placedAt clock log n).length = placed log := by
  induction log with
  | nil => exact fun n => rfl
  | cons entry log ih =>
    intro n
    rw [placedAt, placed, List.countP_cons, ← placed]
    by_cases h : entry.1.Places
    · simp [h, ih]
    · simp [h, ih]

/-- A later log without a further order. -/
theorem placedAt_of_placed {clock : ℕ → ℚ} {log log' : AwaitLog}
    (h : placed (log ++ log') = placed log) :
    placedAt clock (log ++ log') 0 = placedAt clock log 0 := by
  have hnone : placedAt clock log' (0 + log.length) = [] := by
    rw [← List.length_eq_zero_iff, length_placedAt]
    rw [placed_append] at h
    omega
  rw [placedAt_append, hnone, List.append_nil]

theorem placedAt_le {clock : ℕ → ℚ} (hclock : Monotone clock) (log : AwaitLog) : ∀ n,
    ∀ t ∈ placedAt clock log n, clock n ≤ t ∧ t ≤ clock (n + log.length) := by
  induction log with
  | nil => exact fun n t ht => absurd ht List.not_mem_nil
  | cons entry log ih =>
    intro n t ht
    have hlater : ∀ t ∈ placedAt clock log (n + 1), clock n ≤ t ∧
        t ≤ clock (n + (entry :: log).length) := by
      intro t ht
      obtain ⟨hfrom, hto⟩ := ih (n + 1) t ht
      refine ⟨(hclock (Nat.le_succ n)).trans hfrom, hto.trans (hclock ?_)⟩
      rw [List.length_cons]
      omega
    rw [placedAt] at ht
    split_ifs at ht
    · rcases List.mem_cons.mp ht with rfl | ht
      · exact ⟨le_rfl, hclock (Nat.le_add_right ..)⟩
      · exact hlater t ht
    · exact hlater t ht

/-- The instants of a log go forward. -/
theorem placedAt_sorted {clock : ℕ → ℚ} (hclock : Monotone clock) (log : AwaitLog) : ∀ n,
    (placedAt clock log n).Pairwise (· ≤ ·) := by
  induction log with
  | nil => exact fun n => List.Pairwise.nil
  | cons entry log ih =>
    intro n
    rw [placedAt]
    split_ifs
    · refine List.Pairwise.cons (fun t ht => ?_) (ih (n + 1))
      exact (hclock (Nat.le_succ n)).trans (placedAt_le hclock log (n + 1) t ht).1
    · exact ih (n + 1)

/-- What is submitted is placed. -/
theorem length_submitted_le (log : AwaitLog) : (submitted log).length ≤ placed log := by
  induction log using List.reverseRecOn with
  | nil => exact le_rfl
  | append_singleton log entry ih =>
    rw [submitted_snoc, placed_snoc, List.length_append]
    refine Nat.add_le_add ih ?_
    obtain ⟨question, answer⟩ := entry
    cases question with
    | submitOrder order => exact le_rfl
    | quoteMarket _ _ | getOrderStatus _ | sleep | normalizeReceipt _ _ _ _ | broadcast _
    | appendExecutionRecord _ => exact Nat.zero_le _

theorem Idle.placed {log log' : AwaitLog} (h : Idle log log') : placed log' = placed log := by
  refine @Idle.keeps (fun log' => Execution.placed log' = Execution.placed log) _ _ h rfl ?_
  intro before question answer hquestion hplaced
  rw [placed_snoc, hplaced]
  cases question with
  | getOrderStatus _ | sleep | broadcast _ | appendExecutionRecord _ => rfl
  | quoteMarket _ _ | submitOrder _ | normalizeReceipt _ _ _ _ => exact hquestion.elim

theorem GatedAt.snoc {gate log : AwaitLog} (h : GatedAt gate log)
    {entry : Await × Except PyExc Answer} (hentry : ¬ entry.1.Quotes) :
    GatedAt gate (log ++ [entry]) := by
  obtain ⟨quote, between, rfl, hquote, hbetween⟩ := h
  refine ⟨quote, between ++ [entry], by simp, hquote, fun e he => ?_⟩
  rcases List.mem_append.mp he with he | he
  · exact hbetween e he
  · rwa [List.mem_singleton.mp he]

theorem Idle.gatedAt {gate log log' : AwaitLog} (h : Idle log log') (hgate : GatedAt gate log) :
    GatedAt gate log' := by
  refine h.keeps hgate fun before question answer hquestion hgate => hgate.snoc ?_
  cases question with
  | getOrderStatus _ | sleep | broadcast _ | appendExecutionRecord _ => exact id
  | quoteMarket _ _ | submitOrder _ | normalizeReceipt _ _ _ _ => exact hquestion.elim

/-! ## The caps -/

/-- What the gate would be told of a log: its orders, and the seconds since the last. -/
def told (clock : ℕ → ℚ) (log : AwaitLog) (ctx : PreQuoteContext) : PreQuoteContext :=
  { ctx with
    ordersThisSession := placed log
    ordersThisDay := placed log
    secondsSinceLastOrder :=
      (placedAt clock log 0).getLast?.map fun last => ⌊clock log.length - last⌋ }

/-- The caps and the cooldown, of the orders placed. -/
structure CapsBind (envelope : PolicyEnvelope) (clock : ℕ → ℚ) (log : AwaitLog) : Prop where
  run : (placed log : ℤ) ≤ envelope.maxOrdersPerRun
  session : (placed log : ℤ) ≤ envelope.maxOrdersPerSession
  day : (placed log : ℤ) ≤ envelope.maxOrdersPerDay
  cooldown : (placedAt clock log 0).Pairwise fun earlier later =>
    (envelope.cooldownS : ℚ) ≤ later - earlier

/-- An order that is placed keeps the caps. -/
structure Allowed (envelope : PolicyEnvelope) (clock : ℕ → ℚ) (log : AwaitLog) : Prop where
  run : (placed log : ℤ) < envelope.maxOrdersPerRun
  session : (placed log : ℤ) < envelope.maxOrdersPerSession
  day : (placed log : ℤ) < envelope.maxOrdersPerDay
  cooldown : ∀ earlier ∈ placedAt clock log 0, (envelope.cooldownS : ℚ) ≤ clock log.length - earlier

/-- **Orders that are allowed one by one** keep the caps together. -/
theorem capsBind_of_allowed {envelope : PolicyEnvelope} {clock : ℕ → ℚ} {log : AwaitLog}
    (hrun : 0 ≤ envelope.maxOrdersPerRun) (hsession : 0 ≤ envelope.maxOrdersPerSession)
    (hday : 0 ≤ envelope.maxOrdersPerDay)
    (h : EachAfter (fun before entry => entry.1.Places → Allowed envelope clock before) log) :
    CapsBind envelope clock log := by
  induction log using List.reverseRecOn with
  | nil => exact ⟨hrun, hsession, hday, List.Pairwise.nil⟩
  | append_singleton log entry ih =>
    have hlog := ih (eachAfter_append.mp h).1
    have hallowed : entry.1.Places → Allowed envelope clock log := h log entry [] rfl
    have hinstants : placedAt clock (log ++ [entry]) 0 =
        placedAt clock log 0 ++ if entry.1.Places then [clock log.length] else [] := by
      rw [placedAt_append, Nat.zero_add]
      rfl
    by_cases hplaces : entry.1.Places
    · obtain ⟨hrun, hsession, hday, hcooldown⟩ := hallowed hplaces
      have hcount : (placed (log ++ [entry]) : ℤ) = placed log + 1 := by simp [hplaces]
      refine ⟨by omega, by omega, by omega, ?_⟩
      rw [hinstants, if_pos hplaces, List.pairwise_append]
      refine ⟨hlog.cooldown, List.pairwise_singleton _ _, fun earlier hearlier later hlater => ?_⟩
      rw [List.mem_singleton.mp hlater]
      exact hcooldown earlier hearlier
    · have hcount : placed (log ++ [entry]) = placed log := by simp [hplaces]
      rw [if_neg hplaces, List.append_nil] at hinstants
      refine ⟨?_, ?_, ?_, ?_⟩
      · rw [hcount]
        exact hlog.run
      · rw [hcount]
        exact hlog.session
      · rw [hcount]
        exact hlog.day
      · rw [hinstants]
        exact hlog.cooldown

/-- A gate that was told the counts has allowed what is placed behind it. -/
theorem allowed_of_told {envelope : PolicyEnvelope} {clock : ℕ → ℚ} (hclock : Monotone clock)
    {gate log : AwaitLog} (hgate : GatedAt gate log) (hplaced : placed gate = placed log)
    {ctx : PreQuoteContext} (hpass : PreQuotePass (told clock gate ctx) envelope)
    (hrun : (placed gate : ℤ) ≤ ctx.ordersThisRun) : Allowed envelope clock log := by
  obtain ⟨quote, between, rfl, -, -⟩ := hgate
  have hinstants := @placedAt_of_placed clock _ _ hplaced.symm
  refine ⟨?_, ?_, ?_, ?_⟩
  · rw [← hplaced]
    exact hrun.trans_lt hpass.runCap
  · rw [← hplaced]
    exact hpass.sessionCap
  · rw [← hplaced]
    exact hpass.dayCap
  · intro earlier hearlier
    rw [hinstants] at hearlier
    have hne : placedAt clock gate 0 ≠ [] := List.ne_nil_of_mem hearlier
    have hlast := List.getLast?_eq_some_getLast hne
    have hcooldown := hpass.cooldown ⌊clock gate.length - (placedAt clock gate 0).getLast hne⌋
      (by rw [told, hlast]; rfl)
    have hsince := Int.le_floor.mp hcooldown
    have hle : earlier ≤ (placedAt clock gate 0).getLast hne :=
      (placedAt_sorted hclock gate 0).rel_getLast hearlier
    have hlater : clock gate.length ≤ clock (gate ++ quote :: between).length := by
      refine hclock ?_
      rw [List.length_append]
      omega
    linarith

/-! ## The rounds -/

/-- The first gate was passed, nothing was placed since, and where `counted` it was told of no fewer
orders than were placed. -/
def Passed (envelope : PolicyEnvelope) (counted : Prop) (log : AwaitLog) : Prop :=
  ∃ gate ctx, GatedAt gate log ∧ placed gate = placed log ∧ PreQuotePass ctx envelope ∧
    (counted → (placed gate : ℤ) ≤ ctx.ordersThisRun)

/-- An order is placed behind the gate. -/
def BehindGate (envelope : PolicyEnvelope) (counted : Prop) (log : AwaitLog) (question : Await) :
    Prop := question.Places → Passed envelope counted log

section Rounds

variable {format : Json.FloatFormat PyFloat} {sha256 : List Char → String}
  {policyHash : PolicyEnvelope → String} {envelope : PolicyEnvelope} {counted : Prop}
  {log : AwaitLog} {lane : Lane}

theorem Idle.passed {log' : AwaitLog} (h : Idle log log') (hpassed : Passed envelope counted log) :
    Passed envelope counted log' := by
  obtain ⟨gate, ctx, hgate, hplaced, hpass⟩ := hpassed
  exact ⟨gate, ctx, h.gatedAt hgate, hplaced.trans h.placed.symm, hpass⟩

theorem behindGate_quiet (log : AwaitLog) (question : Await) (h : question.IsQuiet) :
    BehindGate envelope counted log question := by
  cases question with
  | getOrderStatus _ | sleep | broadcast _ | appendExecutionRecord _ => exact fun h => h.elim
  | quoteMarket _ _ | submitOrder _ | normalizeReceipt _ _ _ _ => exact h.elim

/-- An order is placed once. -/
theorem wp_placeOrder_once {executionMode executionId : String} {order : Order}
    (hpassed : Passed envelope counted log) :
    Wp (BehindGate envelope counted) (fun log' _ => placed log' = placed log + 1) log
      (placeOrder executionMode executionId order) := by
  unfold placeOrder
  split_ifs
  · refine wp_bind (wp_call (fun _ => hpassed) fun answer => wp_return ?_)
    simp [Await.Places]
  · refine wp_bind (wp_bind (wp_call (fun _ => hpassed) fun answer => wp_return ?_))
    refine wp_bind ((wp_pollOrderTerminal behindGate_quiet answer.ack.venueOrderId _).mono ?_)
    intro log₁ status hidle
    have hlive : ¬ (Await.normalizeReceipt executionId order status "live_guarded").Places :=
      (by decide : ("live_guarded" : String) ≠ "dry_run")
    refine wp_bind (wp_call (fun hplaces => absurd hplaces hlive) fun answer' => wp_return ?_)
    simp [hidle.placed, Await.Places]

/-- What a quote leaves behind it. -/
theorem passed_quote {marketRef : String} {forSize : PyFloat} {answer : Except PyExc Answer}
    {ctx : PreQuoteContext} (hpass : PreQuotePass ctx envelope)
    (hcounted : counted → (placed log : ℤ) ≤ ctx.ordersThisRun) :
    Passed envelope counted (log ++ [(.quoteMarket marketRef forSize, answer)]) := by
  refine ⟨log, ctx, ⟨_, [], rfl, trivial, fun _ hmem => absurd hmem List.not_mem_nil⟩, ?_, hpass,
    hcounted⟩
  simp [Await.Places]

theorem wp_quoted_once {s : LaneState} {proposal : Proposal} {record : ExecutionRecord}
    (horders : (placed log : ℤ) ≤ s.ordersThisRun)
    (hpre : PreQuotePass (lane.preQuoteContext s.guards s.ordersThisRun
      (isEligible (lane.entriesByAgent proposal.agentId)) proposal) lane.envelope) :
    Wp (BehindGate lane.envelope True) (fun log' s' => (placed log' : ℤ) ≤ s'.ordersThisRun) log
      (lane.quoted format sha256 policyHash s proposal record) := by
  refine wp_bind (wp_bind (wp_call (fun hplaces => hplaces.elim) fun answer => wp_return ?_))
  have hpassed : Passed lane.envelope True
      (log ++ [(.quoteMarket proposal.marketKey (lane.stake proposal), .ok answer)]) :=
    passed_quote hpre fun _ => horders
  have hquoted : placed (log ++ [(.quoteMarket proposal.marketKey (lane.stake proposal),
      .ok answer)]) = placed log := by
    simp [Await.Places]
  generalize log ++ [(Await.quoteMarket proposal.marketKey (lane.stake proposal), .ok answer)] = log₀
    at hpassed hquoted ⊢
  refine wp_bind (wp_done fun slippage _ => ?_)
  refine wp_bind (wp_done fun edge _ => ?_)
  refine wp_bind (wp_done fun gap _ => ?_)
  refine wp_bind ((wp_emit behindGate_quiet _).mono ?_)
  rintro log₁ s₁ ⟨hidle, horders₁, -⟩
  have hcount : (placed log₁ : ℤ) ≤ s₁.ordersThisRun := by
    rw [hidle.placed, hquoted, horders₁]
    exact horders
  have hsettled : Wp (BehindGate lane.envelope True) (fun log' (result : LaneState × ExecutionRecord) =>
      (placed log' : ℤ) ≤ result.1.ordersThisRun) log₁ (lane.settle format sha256 s₁ proposal
        answer.quote (evaluatePostQuote policyHash (lane.postQuoteContext proposal answer.quote slippage
          edge) lane.envelope) { record with policyHash := (evaluatePostQuote policyHash
            (lane.postQuoteContext proposal answer.quote slippage edge) lane.envelope).policyHash }) := by
    unfold Lane.settle
    simp only
    split_ifs
    · exact wp_bind (wp_done fun _ _ => wp_return hcount)
    · exact wp_bind (wp_done fun _ _ => wp_return hcount)
    · refine wp_bind (wp_done fun _ _ => ?_)
      refine wp_bind ((wp_placeOrder_once (hidle.passed hpassed)).mono fun log₂ receipt hplaced => ?_)
      refine wp_bind (wp_done fun _ _ => ?_)
      refine wp_bind ((wp_emit behindGate_quiet _).mono ?_)
      rintro log₃ s₃ ⟨hidle₃, horders₃, -⟩
      refine wp_bind ((wp_emit behindGate_quiet _).mono ?_)
      rintro log₄ s₄ ⟨hidle₄, horders₄, -⟩
      refine wp_return ?_
      rw [hidle₄.placed, hidle₃.placed, hplaced, horders₄, horders₃]
      push_cast
      omega
    · exact wp_return hcount
  refine wp_bind (hsettled.mono fun log₂ result hresult => ?_)
  refine wp_bind ((wp_appendExecutionRecord behindGate_quiet _ log₂).mono fun log₃ _ hidle₃ => ?_)
  refine wp_return ?_
  rw [hidle₃.placed]
  exact hresult

/-- **One round** counts its order. -/
theorem wp_step_once {s : LaneState} {proposal : Proposal}
    (horders : (placed log : ℤ) ≤ s.ordersThisRun) :
    Wp (BehindGate lane.envelope True) (fun log' s' => (placed log' : ℤ) ≤ s'.ordersThisRun) log
      (lane.step format sha256 policyHash s proposal) := by
  unfold Lane.step
  dsimp only
  generalize (lane.record proposal _).advance .lawApproved = advanced
  refine wp_bind (wp_done fun record _ => ?_)
  by_cases hdenied : (evaluatePreQuote policyHash (lane.preQuoteContext s.guards s.ordersThisRun
      (isEligible (lane.entriesByAgent proposal.agentId)) proposal) lane.envelope).decision = .denied
  · rw [if_pos hdenied]
    refine wp_bind ((wp_emit behindGate_quiet _).mono ?_)
    rintro log₁ s₁ ⟨hidle, horders₁, -⟩
    refine wp_bind (wp_done fun record _ => ?_)
    refine wp_bind ((wp_appendExecutionRecord behindGate_quiet _ log₁).mono fun log₂ _ hidle₂ => ?_)
    refine wp_return ?_
    rw [hidle₂.placed, hidle.placed, horders₁]
    exact horders
  · rw [if_neg hdenied]
    exact wp_quoted_once horders (preQuote_passes.mp hdenied)

/-- The lane places an order behind a gate that was told of the lane's orders. -/
theorem wp_runExecutionLane_once : Wp (BehindGate lane.envelope True) (fun _ _ => True) []
    (lane.runExecutionLane format sha256 policyHash) := by
  unfold Lane.runExecutionLane
  refine wp_bind (wp_done fun proposals _ => ?_)
  refine wp_bind (wp_foldlM (fun log s _ => (placed log : ℤ) ≤ s.ordersThisRun) ?_ ?_ ?_)
  · exact fun log s proposal rest horders => wp_step_once horders
  · exact fun log s _ => wp_return trivial
  · exact le_rfl

/-- An approval places its order behind a gate. -/
theorem wp_resolveApproval_once (approval : Approval) (log : AwaitLog) :
    Wp (BehindGate approval.envelope False) (fun _ _ => True) log
      (approval.resolveApproval format sha256 policyHash) := by
  have hrefuse : ∀ log reasonCodes hash, Wp (BehindGate approval.envelope False) (fun _ _ => True) log
      (approval.refuse format sha256 reasonCodes hash) := by
    intro log reasonCodes hash
    refine wp_bind (wp_done fun record _ => ?_)
    refine wp_bind ((wp_appendExecutionRecord behindGate_quiet _ log).mono fun log₁ _ _ => ?_)
    exact wp_return trivial
  unfold Approval.resolveApproval
  refine wp_bind (wp_done fun proposals _ => ?_)
  cases approval.proposal proposals with
  | none => exact wp_bind (wp_return (hrefuse ..))
  | some proposal =>
    unfold Approval.review
    dsimp only
    split_ifs with hdenied
    · exact wp_bind (wp_return (hrefuse ..))
    · have hpre := preQuote_passes.mp hdenied
      refine wp_bind (wp_bind (wp_bind (wp_call (fun hplaces => hplaces.elim) fun answer =>
        wp_return ?_)))
      have hpassed : Passed approval.envelope False (log ++
          [(.quoteMarket proposal.marketKey (approval.inputs.stake proposal), .ok answer)]) :=
        passed_quote hpre False.elim
      refine wp_bind (wp_done fun slippage _ => ?_)
      refine wp_bind (wp_done fun edge _ => wp_return ?_)
      dsimp only
      split_ifs
      · refine wp_bind (wp_done fun record _ => ?_)
        refine wp_bind ((wp_placeOrder_once hpassed).mono fun log₁ receipt _ => ?_)
        refine wp_bind (wp_done fun record _ => ?_)
        refine wp_bind ((wp_appendExecutionRecord behindGate_quiet _ log₁).mono fun log₂ _ _ => ?_)
        exact wp_return trivial
      · exact hrefuse ..

end Rounds

/-! ## The run and its approvals -/

/-- The logs of the approvals that follow a lane, under its envelope. -/
inductive Resolved (format : Json.FloatFormat PyFloat) (sha256 : List Char → String)
    (policyHash : PolicyEnvelope → String) (lane : Lane) : AwaitLog → Prop
  | nil : Resolved format sha256 policyHash lane []
  | approval {log log' : AwaitLog} {rest : Shell Resolution} (approval : Approval)
      (resolved : Resolved format sha256 policyHash lane log)
      (envelope : approval.envelope = lane.envelope)
      (heard : Heard (approval.resolveApproval format sha256 policyHash) log' rest) :
      Resolved format sha256 policyHash lane (log ++ log')

/-- The gate that an order passed would have let it pass when told the counts of the log. -/
def PassesTold (tell : AwaitLog → PreQuoteContext → PreQuoteContext) (envelope : PolicyEnvelope)
    (log : AwaitLog) (entry : Await × Except PyExc Answer) : Prop :=
  entry.1.Places → ∀ gate, GatedAt gate log → ∀ ctx, PreQuotePass ctx envelope →
    PreQuotePass (tell gate ctx) envelope

/-- What the gate of an approval would be told, of the run as well. -/
def toldAll (clock : ℕ → ℚ) (log : AwaitLog) (ctx : PreQuoteContext) : PreQuoteContext :=
  told clock log { ctx with ordersThisRun := placed log }

section Runs

variable {format : Json.FloatFormat PyFloat} {sha256 : List Char → String}
  {policyHash : PolicyEnvelope → String} {lane : Lane} {laneLog approvals : AwaitLog}
  {rest : Shell (List Competition.CompetitionEvent)}

/-- Every order of a lane is behind a gate that was told of the lane's orders. -/
theorem lane_behindGate (hheard : Heard (lane.runExecutionLane format sha256 policyHash) laneLog rest) :
    EachAfter (fun before entry => BehindGate lane.envelope True before entry.1) laneLog :=
  (wp_runExecutionLane_once.heard hheard).1

/-- **The run's cap** is kept by a lane. -/
theorem lane_run_cap (hheard : Heard (lane.runExecutionLane format sha256 policyHash) laneLog rest) :
    EachAfter (fun before entry => entry.1.Places →
      (placed before : ℤ) < lane.envelope.maxOrdersPerRun) laneLog := by
  refine (lane_behindGate hheard).imp fun before entry hbehind hplaces => ?_
  obtain ⟨gate, ctx, -, hplaced, hpass, hcounted⟩ := hbehind hplaces
  rw [← hplaced]
  exact (hcounted trivial).trans_lt hpass.runCap

/-- Every order of the approvals is behind a gate too. -/
theorem Resolved.behindGate (hresolved : Resolved format sha256 policyHash lane approvals)
    (hlane : EachAfter (fun before entry => BehindGate lane.envelope True before entry.1) laneLog) :
    EachAfter (fun before entry => BehindGate lane.envelope False before entry.1)
      (laneLog ++ approvals) := by
  induction hresolved with
  | nil =>
    rw [List.append_nil]
    refine hlane.imp fun before entry hbehind hplaces => ?_
    obtain ⟨gate, ctx, hgate, hplaced, hpass, -⟩ := hbehind hplaces
    exact ⟨gate, ctx, hgate, hplaced, hpass, False.elim⟩
  | approval approval _ henvelope hheard ih =>
    rw [← List.append_assoc]
    rw [← henvelope] at ih ⊢
    exact (Wp.heard_after ih (wp_resolveApproval_once approval _) hheard).1

/-- **The caps on the orders of a run bind** it, and the approvals that follow it, where every gate that
an order passed would have let it pass when told the orders that were placed, and when. -/
theorem order_caps_bind {clock : ℕ → ℚ} (hclock : Monotone clock)
    (hrun : 0 < lane.envelope.maxOrdersPerRun) (hsession : 0 < lane.envelope.maxOrdersPerSession)
    (hday : 0 < lane.envelope.maxOrdersPerDay)
    (hheard : Heard (lane.runExecutionLane format sha256 policyHash) laneLog rest)
    (hresolved : Resolved format sha256 policyHash lane approvals)
    (hlane : EachAfter (PassesTold (told clock) lane.envelope) laneLog)
    (happrovals : EachAfter (fun before => PassesTold (toldAll clock) lane.envelope (laneLog ++ before))
      approvals) : CapsBind lane.envelope clock (laneLog ++ approvals) := by
  have hbehind := lane_behindGate hheard
  have hbehind' := (eachAfter_append.mp (hresolved.behindGate hbehind)).2
  refine capsBind_of_allowed hrun.le hsession.le hday.le (eachAfter_append.mpr ⟨?_, ?_⟩)
  · intro before entry after hlog hplaces
    obtain ⟨gate, ctx, hgate, hplaced, hpass, hcounted⟩ := hbehind before entry after hlog hplaces
    have htold := hlane before entry after hlog hplaces gate hgate ctx hpass
    exact allowed_of_told hclock hgate hplaced htold (hcounted trivial)
  · intro before entry after hlog hplaces
    obtain ⟨gate, ctx, hgate, hplaced, hpass, -⟩ := hbehind' before entry after hlog hplaces
    have htold := happrovals before entry after hlog hplaces gate hgate ctx hpass
    exact allowed_of_told hclock hgate hplaced htold le_rfl

end Runs

section Witness

/-- The lane of the run, with a cap of one order a session and a day, and a minute between two. -/
def cappedLane (maxOrdersPerRun : ℤ) (runResult : RunResult) : Lane :=
  { overLane runResult with
    envelope := { (overLane runResult).envelope with
      maxOrdersPerRun := maxOrdersPerRun
      maxOrdersPerSession := 1
      maxOrdersPerDay := 1
      cooldownS := 60 } }

/-- The gate is not told of the session, so the lane goes on as it did. -/
theorem cappedLane_step (maxOrdersPerRun : ℤ) (runResult : RunResult) (s : LaneState)
    (proposal : Proposal) (hrun : maxOrdersPerRun ≤ s.ordersThisRun ↔ 10 ≤ s.ordersThisRun) :
    (cappedLane maxOrdersPerRun runResult).step ratioFormat String.ofList (fun _ => "") s proposal =
      (overLane runResult).step ratioFormat String.ofList (fun _ => "") s proposal := by
  have hpre : ∀ eligible, evaluatePreQuote (fun _ => "")
      ((cappedLane maxOrdersPerRun runResult).preQuoteContext s.guards s.ordersThisRun eligible
        proposal) (cappedLane maxOrdersPerRun runResult).envelope =
        evaluatePreQuote (fun _ => "") ((overLane runResult).preQuoteContext s.guards s.ordersThisRun
          eligible proposal) (overLane runResult).envelope := by
    intro eligible
    have hreasons : preQuoteReasons ((cappedLane maxOrdersPerRun runResult).preQuoteContext s.guards
        s.ordersThisRun eligible proposal) (cappedLane maxOrdersPerRun runResult).envelope =
          preQuoteReasons ((overLane runResult).preQuoteContext s.guards s.ordersThisRun eligible
            proposal) (overLane runResult).envelope := by
      simp [preQuoteReasons, cappedLane, overLane, LaneInputs.preQuoteContext, reasonIf, hrun,
        LaneInputs.stake]
    rw [evaluatePreQuote, evaluatePreQuote, hreasons]
  have hentries : (cappedLane maxOrdersPerRun runResult).entriesByAgent =
      (overLane runResult).entriesByAgent := rfl
  have hrecord : (cappedLane maxOrdersPerRun runResult).record = (overLane runResult).record := rfl
  have hemit : (cappedLane maxOrdersPerRun runResult).emit = (overLane runResult).emit := rfl
  have hevent : (cappedLane maxOrdersPerRun runResult).policyEvent ratioFormat String.ofList =
      (overLane runResult).policyEvent ratioFormat String.ofList := rfl
  have hquoted : (cappedLane maxOrdersPerRun runResult).quoted ratioFormat String.ofList
      (fun _ => "") = (overLane runResult).quoted ratioFormat String.ofList fun _ => "" := rfl
  rw [Lane.step, Lane.step, hentries, hpre, hrecord, hemit, hevent, hquoted]

theorem cappedLane_ten (runResult : RunResult) :
    (cappedLane 10 runResult).runExecutionLane ratioFormat String.ofList (fun _ => "") =
      (overLane runResult).runExecutionLane ratioFormat String.ofList fun _ => "" := by
  have hstep : (cappedLane 10 runResult).step ratioFormat String.ofList (fun _ => "") =
      (overLane runResult).step ratioFormat String.ofList fun _ => "" := by
    funext s proposal
    exact cappedLane_step 10 runResult s proposal Iff.rfl
  have hresult : (cappedLane 10 runResult).runResult = (overLane runResult).runResult := rfl
  have hedge : (cappedLane 10 runResult).envelope.minEdgeBps =
      (overLane runResult).envelope.minEdgeBps := rfl
  have hstart : (cappedLane 10 runResult).start = (overLane runResult).start := rfl
  rw [Lane.runExecutionLane, Lane.runExecutionLane, hstep, hresult, hedge, hstart]

theorem cappedLane_one {runResult : RunResult} {proposal : Proposal}
    (hproposals : valueProposals ratioFormat runResult 0 = .ok [proposal]) :
    (cappedLane 1 runResult).runExecutionLane ratioFormat String.ofList (fun _ => "") =
      (overLane runResult).runExecutionLane ratioFormat String.ofList fun _ => "" := by
  have hcapped : valueProposals ratioFormat (cappedLane 1 runResult).runResult
      (cappedLane 1 runResult).envelope.minEdgeBps = .ok [proposal] := hproposals
  have hover : valueProposals ratioFormat (overLane runResult).runResult
      (overLane runResult).envelope.minEdgeBps = .ok [proposal] := hproposals
  have hstart : (cappedLane 1 runResult).start = (overLane runResult).start := rfl
  have hstep := cappedLane_step 1 runResult (overLane runResult).start proposal
    ⟨fun h => absurd h (by decide : ¬ (1 : ℤ) ≤ 0), fun h => absurd h (by decide : ¬ (10 : ℤ) ≤ 0)⟩
  rw [Lane.runExecutionLane, Lane.runExecutionLane, hcapped, hover, ofCore, done_ok_bind, done_ok_bind,
    List.foldlM_cons, List.foldlM_cons, hstart, hstep]
  simp only [List.foldlM_nil]

/-- A gate in front of every order. -/
theorem told_none {clock : ℕ → ℚ} {gate : AwaitLog} {envelope : PolicyEnvelope}
    {ctx : PreQuoteContext} (hplaced : placed gate = 0) (hpass : PreQuotePass ctx envelope)
    (hsession : 0 < envelope.maxOrdersPerSession) (hday : 0 < envelope.maxOrdersPerDay) :
    PreQuotePass (told clock gate ctx) envelope := by
  have hinstants : placedAt clock gate 0 = [] := by
    rw [← List.length_eq_zero_iff, length_placedAt, hplaced]
  refine { hpass with sessionCap := ?_, dayCap := ?_, cooldown := ?_ }
  · rw [told, hplaced]
    exact hsession
  · rw [told, hplaced]
    exact hday
  · intro seconds hseconds
    rw [told, hinstants] at hseconds
    exact nomatch hseconds

theorem order_caps_bind_one : ∃ evidenceHash laneLog rest,
    Heard ((cappedLane 1 (overResult [7] evidenceHash)).runExecutionLane ratioFormat String.ofList
      fun _ => "") laneLog rest ∧ (submitted laneLog).length = 1 ∧
      CapsBind (cappedLane 1 (overResult [7] evidenceHash)).envelope (fun n => n) (laneLog ++ []) := by
  obtain ⟨evidenceHash, -⟩ := overRun_seals (.inl rfl)
  have hproposals := over_proposals_one evidenceHash
  obtain ⟨laneLog, rest, hheard, hsubmitted, -⟩ := @heard_over [7] 1 evidenceHash hproposals
    (by decide)
  rw [← cappedLane_one hproposals] at hheard
  refine ⟨evidenceHash, laneLog, rest, hheard, by rw [hsubmitted]; rfl, ?_⟩
  refine order_caps_bind Nat.mono_cast one_pos one_pos one_pos hheard .nil ?_ eachAfter_nil
  intro before entry after hlog hplaces gate hgate ctx hpass
  have hcap : (placed before : ℤ) < 1 := lane_run_cap hheard before entry after hlog hplaces
  obtain ⟨quote, between, rfl, -, -⟩ := hgate
  rw [placed_append] at hcap
  exact told_none (by omega) hpass one_pos one_pos

/-- One session, a cap of one order, and two orders. -/
theorem session_cap_passed :
    ¬ ∀ (format : Json.FloatFormat PyFloat) (sha256 : List Char → String)
      (policyHash : PolicyEnvelope → String) (agents : List Agent) (sourceMode : Law.SourceMode)
      (runId : String) (hasSink : Bool) (calls : List Call) (run run' : CompetitionRun)
      (window window' : Option RunWindow) (result : RunResult) (lane : Lane) (clock : ℕ → ℚ)
      (laneLog approvals : AwaitLog) (rest : Shell (List Competition.CompetitionEvent)),
      (CompetitionRun.start agents sourceMode runId hasSink).calls format calls = .ok run →
      run.finalize format sha256 window (.ok ()) = (.ok result, run', window') →
      lane.runResult = result → Monotone clock →
      0 < lane.envelope.maxOrdersPerRun → 0 < lane.envelope.maxOrdersPerSession →
      0 < lane.envelope.maxOrdersPerDay → 0 < lane.envelope.cooldownS →
      Heard (lane.runExecutionLane format sha256 policyHash) laneLog rest →
      Resolved format sha256 policyHash lane approvals →
      CapsBind lane.envelope clock (laneLog ++ approvals) := by
  intro hclaim
  obtain ⟨evidenceHash, run', hseal⟩ := overRun_seals (.inr rfl)
  obtain ⟨laneLog, rest, hheard, hsubmitted, -⟩ := @heard_over [7, 8] 3 evidenceHash
    (over_proposals_two evidenceHash) (by decide)
  rw [← cappedLane_ten] at hheard
  have hcalls : (CompetitionRun.start [punter] .replay "r" false).calls ratioFormat
      (overCalls [7, 8]) = .ok (overRun [7, 8]) := rfl
  have hcaps := hclaim _ _ _ _ _ _ _ _ _ _ _ _ _ _ (fun n => n) _ _ _ hcalls hseal rfl
    Nat.mono_cast (by decide : (0 : ℤ) < 10) one_pos one_pos (by decide : (0 : ℤ) < 60) hheard .nil
  have htwo : (submitted laneLog).length = 2 := by
    rw [hsubmitted]
    rfl
  have hle := length_submitted_le laneLog
  have hsession : (placed (laneLog ++ []) : ℤ) ≤ 1 := hcaps.session
  rw [List.append_nil] at hsession
  omega

end Witness

end Veridex.Execution
