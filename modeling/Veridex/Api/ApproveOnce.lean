import Veridex.Api.Approve
import Veridex.Execution.OrderCaps
import Veridex.Lib.TaskRules

/-!
# One approval, alone

What one approval request does when nothing else moves the store: it places an order at most once, it
writes the record once, after the order, and it appends the order's events. `Undisturbed` says that no
call raises between the placement of an order and the append of its events.
-/

namespace Veridex.Api

open Veridex.Competition Veridex.Execution Veridex.Lib Veridex.Policy Veridex.Py Veridex.Scoring
open Veridex.Store Veridex.Venues Task
open Veridex.Competition (AgentEntry)

/-! ## The marks of a request -/

/-- A step of a request. -/
abbrev ApiMark := Mark (Call Await) Answer Raised

/-- A call that places an order. -/
def Call.places : Call Await → Bool
  | .outside question => question.Places
  | .store _ => false

/-- A call that writes a record. -/
def Call.writes {V : Type} : Call V → Bool
  | .store (.appendExecutionRecord _) => true
  | _ => false

/-- A call that appends events. -/
def Call.logs {V : Type} : Call V → Bool
  | .store (.appendCompetitionEvents _ _) => true
  | _ => false

/-- A call that acted, of a kind. -/
def actedBy (kind : Call Await → Bool) : ApiMark → Bool
  | .acted call => kind call
  | _ => false

/-- The orders placed, the records written and the blocks of events appended, of some marks. -/
structure Tally where
  placed : ℕ
  written : ℕ
  logged : ℕ
  deriving DecidableEq

def tally (own : List ApiMark) : Tally where
  placed := own.countP fun mark => mark.call.places
  written := own.countP (actedBy Call.writes)
  logged := own.countP (actedBy Call.logs)

/-- A call that none of them counts. -/
structure Call.Quiet (call : Call Await) : Prop where
  places : call.places = false
  writes : call.writes = false
  logs : call.logs = false

theorem tally_snoc (own : List ApiMark) (mark : ApiMark) : tally (own ++ [mark]) = {
    placed := (tally own).placed + if mark.call.places then 1 else 0
    written := (tally own).written + if actedBy Call.writes mark then 1 else 0
    logged := (tally own).logged + if actedBy Call.logs mark then 1 else 0 } := by
  simp [tally, List.countP_append, List.countP_cons]

theorem tally_quiet (own : List ApiMark) {mark : ApiMark} (h : mark.call.Quiet) :
    tally (own ++ [mark]) = tally own := by
  have hwrites : actedBy Call.writes mark = false := by
    cases mark with
    | acted call => exact h.writes
    | answered _ _ | failed _ _ => rfl
  have hlogs : actedBy Call.logs mark = false := by
    cases mark with
    | acted call => exact h.logs
    | answered _ _ | failed _ _ => rfl
  simp [tally_snoc, h.places, hwrites, hlogs]

/-- No call raises between an order and its events. -/
def Undisturbed (own : List ApiMark) : ApiMark → Prop
  | .failed call _ => call.places = false ∧ ((tally own).placed = 0 ∨ (tally own).logged ≠ 0)
  | _ => True

/-- The events of an order are in a log. -/
def OrderLogged (executionId : String) (log : List CompetitionEvent) : Prop :=
  ∀ type ∈ [EventType.approvalAudit, .executionSubmitted, .executionReceipt], ∃ event ∈ log,
    event.eventType = type ∧ event.derivedFrom = ["execution_record:" ++ executionId]

/-- What a step of a request keeps to. -/
structure Kept (executionId : String) (own : List ApiMark) (mark : ApiMark)
    (s s' : InMemoryStore) : Prop where
  places : mark.call.places = true → (tally own).placed = 0 ∧ (tally own).written = 0
  writes : actedBy Call.writes mark = true → (tally own).written = 0 ∧
    ∃ record, s'.executionRecords executionId = some record ∧ record.executionId = executionId ∧
      record.status ≠ .awaitingHuman
  records : actedBy Call.writes mark = false → s'.executionRecords = s.executionRecords
  events : ∀ competitionId, s.competitionEvents competitionId ⊆ s'.competitionEvents competitionId

/-- What a request has done when it ends. -/
structure Ended (executionId competitionId : String) (own : List ApiMark) (s : InMemoryStore)
    (outcome : Except Raised ApprovalResponse) : Prop where
  unplaced : (tally own).written = 0 → (tally own).placed = 0
  logged : (tally own).placed ≠ 0 → OrderLogged executionId (s.competitionEvents competitionId)
  returned : ∀ response, outcome = .ok response → (tally own).written ≠ 0

theorem kept_quiet {executionId : String} {own : List ApiMark} {mark : ApiMark} {s : InMemoryStore}
    (h : mark.call.Quiet) : Kept executionId own mark s s := by
  have hwrites : actedBy Call.writes mark = false := by
    cases mark with
    | acted call => exact h.writes
    | answered _ _ | failed _ _ => rfl
  refine ⟨fun hplaces => ?_, fun hw => ?_, fun _ => rfl, fun _ => List.Subset.refl _⟩
  · rw [h.places] at hplaces
    exact absurd hplaces Bool.false_ne_true
  · rw [hwrites] at hw
    exact absurd hw Bool.false_ne_true

theorem ended_early {executionId competitionId : String} {own : List ApiMark} {s : InMemoryStore}
    (h : (tally own).placed = 0) (e : Raised) :
    Ended executionId competitionId own s (.error e) :=
  ⟨fun _ => h, fun hne => absurd h hne, fun _ => nofun⟩

/-! ## The parts -/

section Parts

variable {executionId competitionId : String} {own : List ApiMark} {s : InMemoryStore} {α β : Type}

theorem eq_refl : ∀ s : InMemoryStore, s = s := fun _ => rfl

/-- A read of the store. -/
theorem wp_await_read {name : StoreCall} {method : Method α} (hquiet : (Call.store name).Quiet)
    (hread : ∀ s, (method s).2 = s) :
    Wp Eq Undisturbed (Kept executionId) (fun own' s' outcome => s' = s ∧ tally own' = tally own ∧
      (outcome = (method s).1 ∨ ∃ e, outcome = .error e)) own s
      (await name method : Endpoint Await Answer α) := by
  refine wp_perform ?_ ?_
  · rintro _ rfl -
    rw [hread]
    refine ⟨kept_quiet hquiet, ?_⟩
    rintro _ rfl
    exact ⟨rfl, tally_quiet own hquiet, .inl rfl⟩
  · rintro _ e rfl -
    refine ⟨kept_quiet hquiet, ?_⟩
    rintro _ rfl
    exact ⟨rfl, tally_quiet own hquiet, .inr ⟨e, rfl⟩⟩

theorem wp_orNotFound_read {name : StoreCall} {method : Method α} {detail : String}
    (hquiet : (Call.store name).Quiet) (hread : ∀ s, (method s).2 = s) :
    Wp Eq Undisturbed (Kept executionId) (fun own' s' outcome => s' = s ∧ tally own' = tally own ∧
      (outcome = (method s).1 ∨ ∃ e, outcome = .error e)) own s
      (orNotFound detail (await name method : Endpoint Await Answer α)) := by
  refine wp_andThen eq_refl ((wp_await_read hquiet hread).mono ?_)
  rintro own' s' outcome ⟨rfl, htally, houtcome⟩
  cases outcome with
  | ok a => exact wp_alone ⟨rfl, htally, houtcome⟩
  | error e =>
    obtain ⟨e', he'⟩ := @notFound_raises Await Answer α detail e
    rw [onError, he']
    exact wp_raise ⟨rfl, htally, .inr ⟨e', rfl⟩⟩

/-- A quiet call to the world outside. -/
theorem wp_outside {question : Await} (hquiet : (Call.outside question).Quiet) :
    Wp Eq Undisturbed (Kept executionId) (fun own' s' outcome => s' = s ∧ tally own' = tally own ∧
      ((∃ answer, outcome = .ok answer) ∨
        (∃ e, outcome = .error e) ∧ ((tally own).placed = 0 ∨ (tally own).logged ≠ 0))) own s
      (request (.outside question) : Endpoint Await Answer Answer) := by
  refine wp_request ?_ ?_
  · rintro _ answer rfl -
    refine ⟨kept_quiet hquiet, ?_⟩
    rintro _ rfl
    exact ⟨rfl, tally_quiet own hquiet, .inl ⟨answer, rfl⟩⟩
  · rintro _ e rfl hfair
    refine ⟨kept_quiet hquiet, ?_⟩
    rintro _ rfl
    exact ⟨rfl, tally_quiet own hquiet, .inr ⟨⟨e, rfl⟩, hfair.2⟩⟩

end Parts

/-! ## The shell as a task -/

section Shell

variable {α β : Type}

theorem ofShell_bind (shell : Shell α) (f : α → Shell β) :
    ofShell (shell >>= f) = ofShell shell >>= fun a => ofShell (f a) :=
  interpret_bind _ _ _ _

theorem ofShell_call (question : Await)
    (h : ofAwait question = request (.outside question)) :
    ofShell (Dialogue.call question) = request (.outside question) :=
  (interpret_call _ _ _).trans h

theorem ofShell_append (record : ExecutionRecord) :
    ofShell (Execution.appendExecutionRecord record) = do
      let _ ← appendExecutionRecord record
      return () := by
  have hcall : ofShell (Dialogue.call (.appendExecutionRecord record)) = do
      let _ ← appendExecutionRecord record
      return noAnswer := interpret_call _ _ _
  rw [Execution.appendExecutionRecord, ofShell_bind, hcall, bind_assoc]
  rfl

end Shell

/-! ## The order -/

section Order

variable {executionId : String} {own : List ApiMark} {s : InMemoryStore}

/-- A quiet call behind an order, which returns. -/
theorem wp_behind {question : Await} (hquiet : (Call.outside question).Quiet)
    (htally : tally own = ⟨1, 0, 0⟩) :
    Wp Eq Undisturbed (Kept executionId) (fun own' s' outcome => s' = s ∧ tally own' = ⟨1, 0, 0⟩ ∧
      ∃ answer, outcome = .ok answer) own s
      (request (.outside question) : Endpoint Await Answer Answer) := by
  refine (wp_outside hquiet).mono ?_
  rintro own' s' outcome ⟨rfl, htally', h⟩
  refine ⟨rfl, htally'.trans htally, ?_⟩
  rcases h with h | ⟨-, h⟩
  · exact h
  · rw [htally] at h
    exact absurd h (by decide)

theorem wp_getOrderStatus_behind (venueOrderId : String) (htally : tally own = ⟨1, 0, 0⟩) :
    Wp Eq Undisturbed (Kept executionId) (fun own' s' outcome => s' = s ∧ tally own' = ⟨1, 0, 0⟩ ∧
      ∃ status, outcome = .ok status) own s (ofShell (getOrderStatus venueOrderId)) := by
  rw [getOrderStatus, ofShell_bind, ofShell_call (.getOrderStatus venueOrderId) rfl]
  refine wp_seq ((wp_behind ⟨rfl, rfl, rfl⟩ htally).mono ?_)
  rintro own' s' _ ⟨rfl, htally', answer, rfl⟩
  exact wp_pure ⟨rfl, htally', _, rfl⟩

theorem wp_pollFrom_behind (venueOrderId : String) (polls : ℕ) (last : OrderStatus)
    (htally : tally own = ⟨1, 0, 0⟩) :
    Wp Eq Undisturbed (Kept executionId) (fun own' s' outcome => s' = s ∧ tally own' = ⟨1, 0, 0⟩ ∧
      ∃ status, outcome = .ok status) own s (ofShell (pollFrom venueOrderId polls last)) := by
  induction polls generalizing own last with
  | zero => exact wp_pure ⟨rfl, htally, last, rfl⟩
  | succ polls ih =>
    rw [pollFrom]
    split_ifs
    · exact wp_pure ⟨rfl, htally, last, rfl⟩
    · rw [ofShell_bind, ofShell_call .sleep rfl]
      refine wp_seq ((wp_behind ⟨rfl, rfl, rfl⟩ htally).mono ?_)
      rintro own₁ s₁ _ ⟨rfl, htally₁, answer, rfl⟩
      dsimp only
      rw [ofShell_bind]
      refine wp_seq ((wp_getOrderStatus_behind venueOrderId htally₁).mono ?_)
      rintro own₂ s₂ _ ⟨rfl, htally₂, status, rfl⟩
      exact ih status htally₂

/-- An order is placed, and its receipt is returned. -/
theorem wp_placeOrder_api {executionMode : String} {order : Order} (htally : tally own = ⟨0, 0, 0⟩) :
    Wp Eq Undisturbed (Kept executionId) (fun own' s' outcome => s' = s ∧ tally own' = ⟨1, 0, 0⟩ ∧
      ∃ receipt, outcome = .ok receipt) own s
      (ofShell (placeOrder executionMode executionId order)) := by
  have hplace : ∀ question : Await, (Call.outside question).places = true →
      Wp Eq Undisturbed (Kept executionId) (fun own' s' outcome => s' = s ∧
        tally own' = ⟨1, 0, 0⟩ ∧ ∃ answer, outcome = .ok answer) own s
        (request (.outside question) : Endpoint Await Answer Answer) := by
    intro question hplaces
    refine wp_request ?_ ?_
    · rintro _ answer rfl -
      refine ⟨⟨fun _ => by rw [htally]; exact ⟨rfl, rfl⟩, nofun, fun _ => rfl,
        fun _ => List.Subset.refl _⟩, ?_⟩
      rintro _ rfl
      refine ⟨rfl, ?_, answer, rfl⟩
      simp [tally_snoc, htally, Mark.call, hplaces, actedBy]
    · rintro _ e rfl hfair
      rw [hfair.1] at hplaces
      exact absurd hplaces Bool.false_ne_true
  unfold placeOrder
  split_ifs with hdry
  · rw [normalizeReceipt, ofShell_bind, ofShell_call (.normalizeReceipt ..) rfl]
    have hplaces : ∀ status, (Call.outside (Await.normalizeReceipt executionId order status
        "dry_run")).places = true := fun status => decide_eq_true
          (show (Await.normalizeReceipt executionId order status "dry_run").Places from rfl)
    refine wp_seq ((hplace _ (hplaces _)).mono ?_)
    rintro own' s' _ ⟨rfl, htally', answer, rfl⟩
    exact wp_pure ⟨rfl, htally', _, rfl⟩
  · rw [ofShell_bind, submitOrder, ofShell_bind, ofShell_call (.submitOrder order) rfl]
    have hplaces : (Call.outside (Await.submitOrder order)).places = true := decide_eq_true trivial
    refine wp_seq (wp_seq ((hplace _ hplaces).mono ?_))
    rintro own₁ s₁ _ ⟨rfl, htally₁, answer, rfl⟩
    refine wp_pure ?_
    dsimp only
    rw [pollOrderTerminal, ofShell_bind, ofShell_bind]
    refine wp_seq (wp_seq ((wp_getOrderStatus_behind _ htally₁).mono ?_))
    rintro own₂ s₂ _ ⟨rfl, htally₂, status, rfl⟩
    refine (wp_pollFrom_behind _ 20 status htally₂).mono ?_
    rintro own₃ s₃ _ ⟨rfl, htally₃, status, rfl⟩
    dsimp only
    rw [normalizeReceipt, ofShell_bind, ofShell_call (.normalizeReceipt ..) rfl]
    have hquiet : (Call.outside (Await.normalizeReceipt executionId order status "live_guarded")).Quiet :=
      ⟨decide_eq_false (by decide : ¬ ("live_guarded" : String) = "dry_run"), rfl, rfl⟩
    refine wp_seq ((wp_behind hquiet htally₃).mono ?_)
    rintro own₄ s₄ _ ⟨rfl, htally₄, answer, rfl⟩
    exact wp_pure ⟨rfl, htally₄, _, rfl⟩

end Order

/-! ## The resolution -/

section Resolution

variable {format : Json.FloatFormat PyFloat} {sha256 : List Char → String}
  {policyHash : PolicyEnvelope → String} {own : List ApiMark} {s : InMemoryStore}

/-- What a resolution leaves: the record is written, with an order or without, and the events are those
of the decision, one after the other. -/
structure Resolves (approval : Approval) (own : List ApiMark) (s s' : InMemoryStore)
    (resolution : Resolution) : Prop where
  record : resolution.record.executionId = approval.record.executionId
  status : resolution.record.status ≠ .awaitingHuman
  store : s' = (InMemoryStore.appendExecutionRecord resolution.record s).2
  tally : tally own = ⟨0, 1, 0⟩ ∨
    tally own = ⟨1, 1, 0⟩ ∧ OrderLogged approval.record.executionId resolution.events
  seqs : resolution.events.map (·.seq) <+: [approval.baseSeq, approval.baseSeq + 1,
    approval.baseSeq + 2]

/-- What the core computes before an order. -/
theorem wp_ofCore {α : Type} {executionId : String} {Post : List ApiMark → InMemoryStore →
    Except Raised α → Prop} {outcome : Except PyExc α}
    (hok : ∀ a, outcome = .ok a → Post own s (.ok a)) (herror : ∀ e, Post own s (.error e)) :
    Wp Eq Undisturbed (Kept executionId) Post own s (ofShell (ofCore outcome)) := by
  cases outcome with
  | ok a => exact wp_pure (hok a rfl)
  | error e => exact wp_raise (herror _)

/-- The walk of an approved record. -/
theorem advanceThrough_postPolicyPath {record : ExecutionRecord} (h : record.status = .policyApproved)
    (status : ExecutionStatus) : ∃ last, last ≠ ExecutionStatus.awaitingHuman ∧
      record.advanceThrough (postPolicyPath status) = .ok { record with status := last } := by
  obtain ⟨executionId, competitionId, runId, agentId, sourceSequenceNo, _, hash, receipt⟩ := record
  obtain rfl := h
  cases status with
  | filled => exact ⟨.filled, by decide, rfl⟩
  | partialFill => exact ⟨.partialFill, by decide, rfl⟩
  | accepted => exact ⟨.accepted, by decide, rfl⟩
  | rejected => exact ⟨.rejected, by decide, rfl⟩
  | expired => exact ⟨.expired, by decide, rfl⟩
  | proposed | lawApproved | awaitingHuman | policyApproved | submitted | cancelled | settled | voided
  | unresolved => exact ⟨.submitted, by decide, rfl⟩

/-- A record is written. -/
theorem wp_appendRecord {executionId : String} {record : ExecutionRecord}
    {Post : List ApiMark → InMemoryStore → Except Raised Unit → Prop}
    (hid : record.executionId = executionId) (hstatus : record.status ≠ .awaitingHuman)
    (hwritten : (tally own).written = 0)
    (hpost : ∀ own', tally own' = { tally own with written := 1 } →
      Post own' (InMemoryStore.appendExecutionRecord record s).2 (.ok ()))
    (hfailed : ∀ own' e, tally own' = tally own → (tally own).placed = 0 ∨ (tally own).logged ≠ 0 →
      Post own' s (.error e)) :
    Wp Eq Undisturbed (Kept executionId) Post own s
      (ofShell (Execution.appendExecutionRecord record)) := by
  rw [ofShell_append]
  refine wp_seq (wp_perform ?_ ?_)
  · rintro _ rfl -
    refine ⟨⟨nofun, fun _ => ⟨hwritten, record, ?_, hid, hstatus⟩, nofun, fun _ =>
      List.Subset.refl _⟩, ?_⟩
    · rw [← hid]
      exact Function.update_self ..
    · rintro _ rfl
      refine wp_pure (hpost _ ?_)
      simp [tally_snoc, hwritten, actedBy, Mark.call, Call.places, Call.writes, Call.logs]
  · rintro _ e rfl hfair
    refine ⟨⟨nofun, nofun, fun _ => rfl, fun _ => List.Subset.refl _⟩, ?_⟩
    rintro _ rfl
    refine hfailed _ e ?_ hfair.2
    simp [tally_snoc, actedBy, Mark.call, Call.places]

/-- **A resolution, alone**: it raises before it has done anything, or it is whole. -/
theorem wp_resolveApproval (approval : Approval) (htally : tally own = ⟨0, 0, 0⟩) :
    Wp Eq Undisturbed (Kept approval.record.executionId) (fun own' s' outcome =>
      (∃ e, outcome = .error e ∧ tally own' = ⟨0, 0, 0⟩) ∨
        ∃ resolution, outcome = .ok resolution ∧ Resolves approval own' s s' resolution) own s
      (ofShell (approval.resolveApproval format sha256 policyHash)) := by
  have hrefuse : ∀ own, tally own = ⟨0, 0, 0⟩ → ∀ reasonCodes hash,
      Wp Eq Undisturbed (Kept approval.record.executionId) (fun own' s' outcome =>
        (∃ e, outcome = .error e ∧ tally own' = ⟨0, 0, 0⟩) ∨
          ∃ resolution, outcome = .ok resolution ∧ Resolves approval own' s s' resolution) own s
        (ofShell (approval.refuse format sha256 reasonCodes hash)) := by
    intro own htally reasonCodes hash
    have hrejected : ExecutionStatus.rejected ≠ .awaitingHuman := by decide
    rw [Approval.refuse, ofShell_bind]
    refine wp_seq (wp_ofCore ?_ ?_)
    · intro record hrecord
      obtain ⟨-, rfl⟩ := advance_ok.mp hrecord
      dsimp only
      rw [ofShell_bind]
      refine wp_seq (wp_appendRecord rfl hrejected (by rw [htally]) ?_ ?_)
      · intro own' htally'
        refine wp_pure (.inr ⟨_, rfl, rfl, hrejected, rfl, .inl ?_, ?_⟩)
        · rw [htally', htally]
        · exact ⟨[approval.baseSeq + 2], rfl⟩
      · intro own' e htally' _
        exact .inl ⟨e, rfl, htally'.trans htally⟩
    · exact fun e => .inl ⟨_, rfl, htally⟩
  have hsubmit : ∀ own, tally own = ⟨0, 0, 0⟩ → ∀ proposal quote hash,
      Wp Eq Undisturbed (Kept approval.record.executionId) (fun own' s' outcome =>
        (∃ e, outcome = .error e ∧ tally own' = ⟨0, 0, 0⟩) ∨
          ∃ resolution, outcome = .ok resolution ∧ Resolves approval own' s s' resolution) own s
        (ofShell (approval.submit format sha256 proposal quote hash)) := by
    intro own htally proposal quote hash
    rw [Approval.submit, ofShell_bind]
    refine wp_seq (wp_ofCore ?_ fun e => .inl ⟨_, rfl, htally⟩)
    intro record hrecord
    obtain ⟨-, rfl⟩ := advance_ok.mp hrecord
    dsimp only
    rw [ofShell_bind]
    refine wp_seq ((wp_placeOrder_api htally).mono ?_)
    rintro own₁ s₁ _ ⟨rfl, htally₁, receipt, rfl⟩
    obtain ⟨last, hlast, hwalk⟩ := @advanceThrough_postPolicyPath
      { approval.record with status := .policyApproved } rfl receipt.status
    dsimp only
    rw [hwalk, ofShell_bind]
    refine wp_seq (wp_pure ?_)
    dsimp only
    rw [ofShell_bind]
    refine wp_seq (wp_appendRecord rfl hlast (by rw [htally₁]) ?_ ?_)
    · intro own₂ htally₂
      refine wp_pure (.inr ⟨_, rfl, rfl, hlast, rfl, .inr ⟨?_, ?_⟩, List.prefix_rfl⟩)
      · rw [htally₂, htally₁]
      · intro type htype
        simp only [List.mem_cons, List.not_mem_nil, or_false] at htype
        rcases htype with rfl | rfl | rfl
        · exact ⟨_, List.mem_cons_self, rfl, rfl⟩
        · exact ⟨_, List.mem_cons_of_mem _ List.mem_cons_self, rfl, rfl⟩
        · exact ⟨_, List.mem_cons_of_mem _ (List.mem_cons_of_mem _ List.mem_cons_self), rfl, rfl⟩
    · intro own₂ e _ h
      rw [htally₁] at h
      exact absurd h (by decide)
  rw [Approval.resolveApproval, ofShell_bind]
  refine wp_seq (wp_ofCore ?_ fun e => .inl ⟨_, rfl, htally⟩)
  intro proposals _
  dsimp only
  rw [ofShell_bind]
  cases approval.proposal proposals with
  | none => exact wp_seq (wp_pure (hrefuse own htally _ _))
  | some proposal =>
    unfold Approval.review
    dsimp only
    split_ifs with hdenied
    · exact wp_seq (wp_pure (hrefuse own htally _ _))
    · rw [ofShell_bind, Execution.quoteMarket, ofShell_bind, ofShell_call (.quoteMarket ..) rfl]
      refine wp_seq (wp_seq (wp_seq ((wp_outside ⟨rfl, rfl, rfl⟩).mono ?_)))
      rintro own₁ s₁ outcome ⟨rfl, htally₁, ⟨answer, rfl⟩ | ⟨⟨e, rfl⟩, -⟩⟩
      · refine wp_pure ?_
        dsimp only
        rw [ofShell_bind]
        refine wp_seq (wp_ofCore ?_ fun e => .inl ⟨_, rfl, htally₁.trans htally⟩)
        intro slippage _
        dsimp only
        rw [ofShell_bind]
        refine wp_seq (wp_ofCore ?_ fun e => .inl ⟨_, rfl, htally₁.trans htally⟩)
        intro edge _
        refine wp_pure ?_
        dsimp only
        split_ifs
        · exact hsubmit own₁ (htally₁.trans htally) _ _ _
        · exact hrefuse own₁ (htally₁.trans htally) _ _
      · exact .inl ⟨e, rfl, htally₁.trans htally⟩

/-! ## The request -/

theorem lt_nextSeq {existing : List CompetitionEvent} {event : CompetitionEvent}
    (h : event ∈ existing) : event.seq < nextSeq existing := by
  have hle : ∀ (events : List CompetitionEvent) (last : ℤ),
      last ≤ events.foldl (fun last event => max last event.seq) last ∧
        ∀ event ∈ events, event.seq ≤ events.foldl (fun last event => max last event.seq) last := by
    intro events
    induction events with
    | nil => exact fun last => ⟨le_rfl, fun _ hmem => absurd hmem List.not_mem_nil⟩
    | cons first events ih =>
      intro last
      obtain ⟨hlast, hmem⟩ := ih (max last first.seq)
      refine ⟨(le_max_left _ _).trans hlast, fun event hevent => ?_⟩
      rcases List.mem_cons.mp hevent with rfl | hevent
      · exact (le_max_right _ _).trans hlast
      · exact hmem event hevent
  exact Int.lt_add_one_iff.mpr ((hle existing (-1)).2 event h)

theorem nextSeq_nonneg (existing : List CompetitionEvent) : 0 ≤ nextSeq existing := by
  have hle : ∀ (events : List CompetitionEvent) (last : ℤ),
      last ≤ events.foldl (fun last event => max last event.seq) last := by
    intro events
    induction events with
    | nil => exact fun last => le_rfl
    | cons first events ih => exact fun last => (le_max_left _ _).trans (ih _)
  have hlast := hle existing (-1)
  rw [nextSeq]
  omega

/-- The numbers of a block that goes on after a log are free. -/
theorem appendCompetitionEvents_next {competitionId : String} {existing events : List CompetitionEvent}
    (hlist : (InMemoryStore.listCompetitionEvents competitionId (-1) s).1 = .ok existing)
    (hseqs : events.map (·.seq) <+: [nextSeq existing, nextSeq existing + 1, nextSeq existing + 2]) :
    (InMemoryStore.appendCompetitionEvents competitionId events s).1 = .ok () ∧
      (InMemoryStore.appendCompetitionEvents competitionId events s).2.executionRecords =
        s.executionRecords ∧
      (∀ c, s.competitionEvents c ⊆
        (InMemoryStore.appendCompetitionEvents competitionId events s).2.competitionEvents c) ∧
      events ⊆
        (InMemoryStore.appendCompetitionEvents competitionId events s).2.competitionEvents
          competitionId := by
  have hfree : (events.map (·.seq)).Nodup ∧
      ∀ event ∈ events, event.seq ∉ (s.competitionEvents competitionId).map (·.seq) := by
    refine ⟨hseqs.sublist.nodup (by simp), fun event hevent hmem => ?_⟩
    have hge : nextSeq existing ≤ event.seq := by
      have hin := hseqs.subset (List.mem_map_of_mem hevent)
      simp only [List.mem_cons, List.not_mem_nil, or_false] at hin
      omega
    obtain ⟨stored, hstored, hseq⟩ := List.mem_map.mp hmem
    rw [← hseq] at hge
    by_cases hnegative : -1 < stored.seq
    · have hexisting : stored ∈ existing := by
        rw [← Except.ok.inj hlist]
        exact List.mem_filter.mpr ⟨List.mem_mergeSort.mpr hstored, decide_eq_true hnegative⟩
      exact absurd (lt_nextSeq hexisting) (not_lt.mpr hge)
    · have hnext := nextSeq_nonneg existing
      omega
  rw [InMemoryStore.appendCompetitionEvents_free hfree]
  refine ⟨rfl, rfl, fun c => ?_, ?_⟩
  all_goals dsimp only
  · by_cases hc : c = competitionId
    · subst hc
      rw [Function.update_self]
      exact List.subset_append_left ..
    · rw [Function.update_of_ne hc]
      exact List.Subset.refl _
  · rw [Function.update_self]
    exact List.subset_append_right ..

theorem wp_broadcastAll {executionId : String} {events : List CompetitionEvent}
    (hlogged : (tally own).logged ≠ 0) :
    Wp Eq Undisturbed (Kept executionId) (fun own' s' _ => s' = s ∧ tally own' = tally own) own s
      (broadcastAll events) := by
  induction events generalizing own with
  | nil => exact wp_pure ⟨rfl, rfl⟩
  | cons event events ih =>
    rw [broadcastAll]
    refine wp_seq ((wp_outside ⟨rfl, rfl, rfl⟩).mono ?_)
    rintro own₁ s₁ outcome ⟨rfl, htally₁, ⟨answer, rfl⟩ | ⟨⟨e, rfl⟩, -⟩⟩
    · refine (ih (by rwa [htally₁])).mono ?_
      rintro own₂ s₂ _ ⟨hs, htally₂⟩
      exact ⟨hs, htally₂.trans htally₁⟩
    · exact ⟨rfl, htally₁⟩

/-- What follows a resolution: its events are appended and broadcast. -/
theorem wp_afterResolution {approval : Approval} {executionId competitionId : String} {s' : InMemoryStore}
    {resolution : Resolution} {existing : List CompetitionEvent} {response : ApprovalResponse}
    (hlist : (InMemoryStore.listCompetitionEvents competitionId (-1) s).1 = .ok existing)
    (hid : approval.record.executionId = executionId) (hbase : approval.baseSeq = nextSeq existing)
    (h : Resolves approval own s s' resolution) :
    Wp Eq Undisturbed (Kept executionId) (Ended executionId competitionId) own s' (do
      appendCompetitionEvents competitionId resolution.events
      broadcastAll resolution.events
      return response : Endpoint Await Answer ApprovalResponse) := by
  have hlist' : (InMemoryStore.listCompetitionEvents competitionId (-1) s').1 = .ok existing := by
    rw [h.store]
    exact hlist
  have hseqs := h.seqs
  rw [hbase] at hseqs
  obtain ⟨hok, hrecords, hgrow, hevents⟩ := appendCompetitionEvents_next hlist' hseqs
  have hwritten : (tally own).written = 1 := by
    rcases h.tally with h | ⟨h, -⟩ <;> rw [h]
  refine wp_seq (wp_perform ?_ ?_)
  · rintro _ rfl -
    refine ⟨⟨nofun, nofun, fun _ => hrecords, hgrow⟩, ?_⟩
    rintro _ rfl
    rw [hok]
    have htally : tally (own ++ [.acted (.store (.appendCompetitionEvents competitionId
        resolution.events))]) = { tally own with logged := (tally own).logged + 1 } := by
      simp [tally_snoc, actedBy, Mark.call, Call.places, Call.writes, Call.logs]
    refine wp_seq ((wp_broadcastAll ?_).mono ?_)
    · rw [htally]
      exact Nat.succ_ne_zero _
    · rintro own₁ s₁ outcome ⟨rfl, htally₁⟩
      rw [htally] at htally₁
      have hended : ∀ outcome, Ended executionId competitionId own₁
          (InMemoryStore.appendCompetitionEvents competitionId resolution.events s').2 outcome := by
        refine fun outcome => ⟨fun hzero => ?_, fun hplaced => ?_, fun _ _ => ?_⟩
        · rw [htally₁] at hzero
          exact absurd (hwritten.symm.trans hzero) one_ne_zero
        · rw [htally₁] at hplaced
          rcases h.tally with h | ⟨-, hlogged⟩
          · rw [h] at hplaced
            exact absurd rfl hplaced
          · intro type htype
            obtain ⟨event, hevent, hmatch⟩ := hlogged type htype
            rw [hid] at hmatch
            exact ⟨event, hevents hevent, hmatch⟩
        · rw [htally₁]
          exact hwritten.trans_ne one_ne_zero
      cases outcome with
      | error e => exact hended _
      | ok _ => exact wp_pure (hended _)
  · rintro _ e rfl hfair
    refine ⟨⟨nofun, nofun, fun _ => rfl, fun _ => List.Subset.refl _⟩, ?_⟩
    rintro _ rfl
    have hplaced : (tally own).placed = 0 := by
      rcases h.tally with h | ⟨h, -⟩
      · rw [h]
      · have hfree := hfair.2
        rw [h] at hfree
        exact absurd hfree (by decide)
    refine ended_early ?_ e
    simpa [tally_snoc, actedBy, Mark.call, Call.places] using hplaced

/-- **One request, alone**, with a record that awaits a human. -/
theorem wp_approveRecord {executionId : String} {principal note : Option String}
    {record : ExecutionRecord} (hid : record.executionId = executionId)
    (hstatus : record.status = .awaitingHuman) (htally : tally own = ⟨0, 0, 0⟩) :
    Wp Eq Undisturbed (Kept executionId) (Ended executionId record.competitionId) own s
      (approveRecord format sha256 policyHash executionId principal note record) := by
  have hearly : ∀ own' s' e, tally own' = ⟨0, 0, 0⟩ →
      Ended executionId record.competitionId own' s' (.error e) := by
    intro own' s' e htally'
    exact ended_early (by rw [htally']) e
  rw [approveRecord]
  refine wp_seq ((wp_orNotFound_read ⟨rfl, rfl, rfl⟩ (InMemoryStore.getCompetition_reads _)).mono ?_)
  rintro own₁ s₁ outcome ⟨rfl, htally₁, -⟩
  cases outcome with
  | error e => exact hearly _ _ _ (htally₁.trans htally)
  | ok competition =>
    have howner : Wp Eq Undisturbed (Kept executionId) (fun own' s' _ => s' = s₁ ∧
        tally own' = ⟨0, 0, 0⟩) own₁ s₁ (checkOwner competition principal) := by
      unfold checkOwner
      cases competition.config.operatorId with
      | none => exact wp_pure ⟨rfl, htally₁.trans htally⟩
      | some owner =>
        dsimp only
        split_ifs
        · exact wp_pure ⟨rfl, htally₁.trans htally⟩
        · exact wp_raise ⟨rfl, htally₁.trans htally⟩
    refine wp_seq (howner.mono ?_)
    rintro own₂ s₂ outcome ⟨rfl, htally₂⟩
    cases outcome with
    | error e => exact hearly _ _ _ htally₂
    | ok _ =>
      dsimp only
      rw [if_neg (not_not_intro hstatus)]
      refine wp_seq ((wp_orNotFound_read ⟨rfl, rfl, rfl⟩ (InMemoryStore.loadRun_reads _)).mono ?_)
      rintro own₃ s₃ outcome ⟨rfl, htally₃, -⟩
      cases outcome with
      | error e => exact hearly _ _ _ (htally₃.trans htally₂)
      | ok runResult =>
        refine wp_seq ((wp_await_read ⟨rfl, rfl, rfl⟩ fun _ => rfl).mono ?_)
        rintro own₄ s₄ outcome ⟨rfl, htally₄, houtcome⟩
        rw [htally₃, htally₂] at htally₄
        cases outcome with
        | error e => exact hearly _ _ _ htally₄
        | ok existing =>
          have hlist : (InMemoryStore.listCompetitionEvents record.competitionId (-1) s₄).1 =
              .ok existing := by
            rcases houtcome with h | ⟨e, h⟩
            · exact h.symm
            · exact nomatch h
          dsimp only
          refine wp_seq ?_
          have hresolve := @wp_resolveApproval format sha256 policyHash own₄ s₄
            (approvalOf record competition runResult existing principal note) htally₄
          rw [show (approvalOf record competition runResult existing principal note).record.executionId =
            executionId from hid] at hresolve
          refine hresolve.mono ?_
          rintro own₅ s₅ outcome (⟨e, rfl, htally₅⟩ | ⟨resolution, rfl, hresolves⟩)
          · exact hearly _ _ _ htally₅
          · dsimp only
            rw [← hid]
            exact wp_afterResolution hlist rfl rfl hresolves

end Resolution

end Veridex.Api
