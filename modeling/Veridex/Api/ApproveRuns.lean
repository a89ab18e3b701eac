import Veridex.Api.ApproveOnce

/-!
# Concurrent approvals of one execution

Any number of requests resolve one record, interleaved at their awaits. `Orderly` is a condition on
each step: no request reads the record while it awaits a human and another has begun and not ended, and
no call raises between an order and its events.

Results: `approval_resolved_once`, and `approved_twice` of two requests that are not orderly.
-/

namespace Veridex.Api

open Veridex.Competition Veridex.Execution Veridex.Lib Veridex.Policy Veridex.Py Veridex.Scoring
open Veridex.Store Task

section

variable {format : Json.FloatFormat PyFloat} {sha256 : List Char → String}
  {policyHash : PolicyEnvelope → String} {own : List ApiMark} {s : InMemoryStore}

/-! ## Requests without effect -/

/-- A step without effect. -/
def NoEffect (_ : List ApiMark) (mark : ApiMark) (s s' : InMemoryStore) : Prop :=
  s' = s ∧ mark.call.Quiet

/-- A request that has no effect from now on, whatever the others do, and raises. -/
def Idles (own : List ApiMark) (s : InMemoryStore)
    (t : Endpoint Await Answer ApprovalResponse) : Prop :=
  Wp (fun _ _ => True) (fun _ _ => True) NoEffect (fun _ _ outcome => ∃ e, outcome = .error e) own s t

theorem idles_raise (e : Raised) : Idles own s (raise e) := wp_done fun _ _ => ⟨e, rfl⟩

/-- A read has no effect, whatever the others do. -/
theorem wp_orNotFound_free {α : Type} {name : StoreCall} {method : Method α} {detail : String}
    (hquiet : (Call.store (V := Await) name).Quiet) (hread : ∀ s, (method s).2 = s) :
    Wp (fun _ _ => True) (fun _ _ => True) NoEffect (fun _ _ _ => True) own s
      (orNotFound detail (await name method : Endpoint Await Answer α)) := by
  have hhandled : ∀ own s outcome, Wp (fun _ _ => True) (fun _ _ => True) NoEffect
      (fun _ _ _ => True) own s
      (onError (notFound detail) outcome : Endpoint Await Answer α) := by
    intro own s outcome
    cases outcome with
    | ok a => exact wp_done fun _ _ => trivial
    | error e =>
      obtain ⟨e', he'⟩ := @notFound_raises Await Answer α detail e
      rw [onError, he']
      exact wp_done fun _ _ => trivial
  refine wp_andThen (fun _ => trivial) (wp_perform ?_ ?_)
  · exact fun s' _ _ => ⟨⟨hread s', hquiet⟩, fun s'' _ => hhandled _ _ _⟩
  · exact fun s' e _ _ => ⟨⟨rfl, hquiet⟩, fun s'' _ => hhandled _ _ _⟩

/-- A request that has read a record which awaits no human. -/
theorem idles_approveRecord {executionId : String} {principal note : Option String}
    {record : ExecutionRecord} (h : record.status ≠ .awaitingHuman) :
    Idles own s (approveRecord format sha256 policyHash executionId principal note record) := by
  rw [Idles, approveRecord]
  refine wp_bind (fun _ => trivial) ((wp_orNotFound_free ⟨rfl, rfl, rfl⟩
    (InMemoryStore.getCompetition_reads _)).mono fun own s outcome _ => ?_)
  cases outcome with
  | error e => exact fun _ _ => ⟨e, rfl⟩
  | ok competition =>
    dsimp only
    rw [if_pos h]
    unfold checkOwner
    cases competition.config.operatorId with
    | none => exact wp_done fun _ _ => ⟨_, rfl⟩
    | some owner =>
      dsimp only
      split_ifs
      · exact wp_done fun _ _ => ⟨_, rfl⟩
      · exact wp_done fun _ _ => ⟨_, rfl⟩

/-! ## Orderly runs -/

end

variable {ι : Type} [DecidableEq ι]

/-- A pool of approval requests. -/
abbrev Approvals (ι : Type) := Pool InMemoryStore ι (Call Await) Answer Raised ApprovalResponse

/-- The orders that were placed, of all requests. -/
def placedIn (marks : List (ι × ApiMark)) : ℕ := marks.countP fun entry => entry.2.call.places

/-- The records that were written, of all requests. -/
def writtenIn (marks : List (ι × ApiMark)) : ℕ := marks.countP fun entry => actedBy Call.writes entry.2

/-- The condition on a step. -/
structure Orderly (executionId : String) (marks : List (ι × ApiMark)) (p : Approvals ι) (i : ι)
    (mark : ApiMark) : Prop where
  undisturbed : Undisturbed (Pool.own i marks) mark
  alone : mark = .acted (.store (.getExecutionRecord executionId)) →
    ∀ record, p.shared.executionRecords executionId = some record → record.status = .awaitingHuman →
      ∀ j, j ≠ i → Pool.own j marks ≠ [] → ∃ outcome, p.tasks j = .done outcome

section

variable (format : Json.FloatFormat PyFloat) (sha256 : List Char → String)
  (policyHash : PolicyEnvelope → String) (executionId : String)
  (principal note : ι → Option String)

/-- The requests of an execution, over a store. -/
def requests (store : InMemoryStore) : Approvals ι where
  shared := store
  tasks i := approveExecution format sha256 policyHash executionId (principal i) (note i)

end

section Runs

variable {format : Json.FloatFormat PyFloat} {sha256 : List Char → String}
  {policyHash : PolicyEnvelope → String} {executionId competitionId : String}
  {principal note : ι → Option String} {store : InMemoryStore} {record₀ : ExecutionRecord}
  {marks : List (ι × ApiMark)} {p : Approvals ι}

/-- The first step of a request. -/
theorem approveExecution_step {s s' : InMemoryStore} {principal note : Option String} {mark : ApiMark}
    {t : Endpoint Await Answer ApprovalResponse} (h : Task.Step s
      (approveExecution format sha256 policyHash executionId principal note) mark s' t) :
    s' = s ∧ mark.call = .store (.getExecutionRecord executionId) ∧
      ((∃ e, t = raise e) ∨ mark = .acted (.store (.getExecutionRecord executionId)) ∧
        ∃ record, s.executionRecords executionId = some record ∧
          t = approveRecord format sha256 policyHash executionId principal note record) := by
  have hnext : ∀ outcome : Except Raised ExecutionRecord, (∃ e, ((Task.done outcome).andThen
      (onError (notFound ("execution " ++ pyRepr executionId ++ " not found"))) >>= approveRecord format sha256
        policyHash executionId principal note : Endpoint Await Answer ApprovalResponse) = raise e) ∨
      ∃ record, outcome = .ok record := by
    intro outcome
    cases outcome with
    | ok record => exact .inr ⟨record, rfl⟩
    | error e =>
      obtain ⟨e', he'⟩ := @notFound_raises Await Answer ExecutionRecord
        ("execution " ++ pyRepr executionId ++ " not found") e
      refine .inl ⟨e', ?_⟩
      rw [andThen, onError, he']
      rfl
  rcases Step.of_act h with ⟨rfl, rfl, ht⟩ | ⟨e, rfl, rfl, ht⟩
  · refine ⟨InMemoryStore.getExecutionRecord_reads _ _, rfl, ?_⟩
    rcases hnext (InMemoryStore.getExecutionRecord executionId s).1 with ⟨e, he⟩ | ⟨record, hget⟩
    · exact .inl ⟨e, ht.trans he⟩
    · refine .inr ⟨rfl, record, InMemoryStore.getExecutionRecord_ok.mp hget, ?_⟩
      rw [ht]
      dsimp only
      rw [hget]
      rfl
  · rcases hnext (.error e) with ⟨e', he'⟩ | ⟨record, h⟩
    · exact ⟨rfl, rfl, .inl ⟨e', ht.trans he'⟩⟩
    · cases h

/-- A request that has placed and written nothing: it has not begun, or it idles. -/
def Passive (fresh : Endpoint Await Answer ApprovalResponse) (own : List ApiMark) (s : InMemoryStore)
    (t : Endpoint Await Answer ApprovalResponse) : Prop :=
  own = [] ∧ t = fresh ∨ (tally own).placed = 0 ∧ (tally own).written = 0 ∧ Idles own s t

/-- What an orderly run keeps. One request at most owns what has been placed and written. -/
structure Owned (start : Approvals ι) (record₀ : ExecutionRecord) (owner : Option ι)
    (marks : List (ι × ApiMark)) (p : Approvals ι) : Prop where
  passive : ∀ j, owner ≠ some j →
    Passive (start.tasks j) (Pool.own j marks) p.shared (p.tasks j)
  active : ∀ w, owner = some w → Pool.own w marks ≠ [] ∧
    Wp Eq Undisturbed (Kept record₀.executionId) (Ended record₀.executionId record₀.competitionId)
      (Pool.own w marks) p.shared (p.tasks w)
  placed : placedIn marks = owner.elim 0 fun w => (tally (Pool.own w marks)).placed
  written : writtenIn marks = owner.elim 0 fun w => (tally (Pool.own w marks)).written
  orders : placedIn marks ≤ 1
  decisions : writtenIn marks ≤ 1
  pending : writtenIn marks = 0 → p.shared.executionRecords record₀.executionId = some record₀
  resolved : writtenIn marks ≠ 0 → ∃ record,
    p.shared.executionRecords record₀.executionId = some record ∧ record.status ≠ .awaitingHuman

omit [DecidableEq ι] in
theorem placedIn_snoc (marks : List (ι × ApiMark)) (i : ι) (mark : ApiMark) :
    placedIn (marks ++ [(i, mark)]) = placedIn marks + if mark.call.places then 1 else 0 := by
  simp [placedIn, List.countP_append, List.countP_cons]

omit [DecidableEq ι] in
theorem writtenIn_snoc (marks : List (ι × ApiMark)) (i : ι) (mark : ApiMark) :
    writtenIn (marks ++ [(i, mark)]) = writtenIn marks + if actedBy Call.writes mark then 1 else 0 := by
  simp [writtenIn, List.countP_append, List.countP_cons]

theorem Idles.any {own : List ApiMark} {s s' : InMemoryStore}
    {t : Endpoint Await Answer ApprovalResponse} (h : Idles own s t) : Idles own s' t :=
  Wp.rely (fun _ _ _ _ _ => trivial) h trivial

theorem Passive.any {fresh t : Endpoint Await Answer ApprovalResponse} {own : List ApiMark}
    {s s' : InMemoryStore} (h : Passive fresh own s t) : Passive fresh own s' t := by
  rcases h with h | ⟨hplaced, hwritten, hidle⟩
  · exact .inl h
  · exact .inr ⟨hplaced, hwritten, hidle.any⟩

theorem actedBy_writes_of_quiet {mark : ApiMark} (h : mark.call.Quiet) :
    actedBy Call.writes mark = false := by
  cases mark with
  | acted call => exact h.writes
  | answered _ _ | failed _ _ => rfl

/-- The owner of the run takes a step. -/
theorem Owned.step_owner {start : Approvals ι} {w : ι} {mark : ApiMark} {s : InMemoryStore}
    {t : Endpoint Await Answer ApprovalResponse} (h : Owned start record₀ (some w) marks p)
    (hfair : Undisturbed (Pool.own w marks) mark)
    (hstep : Task.Step p.shared (p.tasks w) mark s t) :
    Owned start record₀ (some w) (marks ++ [(w, mark)]) ⟨s, Function.update p.tasks w t⟩ := by
  obtain ⟨hbegun, hwp⟩ := h.active w rfl
  obtain ⟨hkept, hnext⟩ := hwp.step (fun _ => rfl) hstep hfair
  have hplaced : placedIn marks = (tally (Pool.own w marks)).placed := h.placed
  have hwritten : writtenIn marks = (tally (Pool.own w marks)).written := h.written
  refine ⟨?_, ?_, ?_, ?_, ?_, ?_, ?_, ?_⟩
  · intro j hj
    have hne : w ≠ j := fun heq => hj (congrArg some heq)
    rw [Pool.own_snoc_of_ne hne]
    dsimp only
    rw [Function.update_of_ne hne.symm]
    exact (h.passive j hj).any
  · intro w' hw'
    obtain rfl := Option.some.inj hw'
    rw [Pool.own_snoc_self]
    refine ⟨by simp, ?_⟩
    dsimp only
    rw [Function.update_self]
    exact hnext
  · simp [placedIn_snoc, tally_snoc, hplaced]
  · simp [writtenIn_snoc, tally_snoc, hwritten]
  · rw [placedIn_snoc]
    split_ifs with hplaces
    · rw [hplaced, (hkept.places hplaces).1]
    · exact h.orders
  · rw [writtenIn_snoc]
    split_ifs with hwrites
    · rw [hwritten, (hkept.writes hwrites).1]
    · exact h.decisions
  · intro hzero
    rw [writtenIn_snoc] at hzero
    have hnot : actedBy Call.writes mark = false := by
      by_contra hw
      simp [Bool.not_eq_false _ ▸ hw] at hzero
    dsimp only
    rw [hkept.records hnot]
    exact h.pending (by omega)
  · intro hne
    dsimp only
    by_cases hwrites : actedBy Call.writes mark = true
    · obtain ⟨-, record, hrecord, -, hstatus⟩ := hkept.writes hwrites
      exact ⟨record, hrecord, hstatus⟩
    · have hnot := Bool.eq_false_iff.mpr hwrites
      rw [hkept.records hnot]
      rw [writtenIn_snoc, hnot] at hne
      exact h.resolved (by simpa using hne)

/-- A request that owns nothing takes a step without effect, and goes on owning nothing. -/
theorem Owned.step_other {start : Approvals ι} {owner : Option ι} {i : ι} {mark : ApiMark}
    {t : Endpoint Await Answer ApprovalResponse} (h : Owned start record₀ owner marks p)
    (hi : owner ≠ some i) (hquiet : mark.call.Quiet)
    (hidle : Idles (Pool.own i marks ++ [mark]) p.shared t)
    (hplaced : (tally (Pool.own i marks)).placed = 0)
    (hwritten : (tally (Pool.own i marks)).written = 0) :
    Owned start record₀ owner (marks ++ [(i, mark)]) ⟨p.shared, Function.update p.tasks i t⟩ := by
  have hwrites := actedBy_writes_of_quiet hquiet
  have hplacedIn : placedIn (marks ++ [(i, mark)]) = placedIn marks := by
    simp [placedIn_snoc, hquiet.places]
  have hwrittenIn : writtenIn (marks ++ [(i, mark)]) = writtenIn marks := by
    simp [writtenIn_snoc, hwrites]
  have howned : ∀ w, owner = some w → Pool.own w (marks ++ [(i, mark)]) = Pool.own w marks := by
    rintro w rfl
    exact Pool.own_snoc_of_ne (fun heq => hi (congrArg some heq.symm)) _ _
  refine ⟨?_, ?_, ?_, ?_, ?_, ?_, ?_, ?_⟩
  · intro j hj
    dsimp only
    by_cases hji : j = i
    · subst hji
      rw [Pool.own_snoc_self, Function.update_self]
      exact .inr ⟨by rw [tally_quiet _ hquiet, hplaced], by rw [tally_quiet _ hquiet, hwritten], hidle⟩
    · rw [Pool.own_snoc_of_ne (Ne.symm hji), Function.update_of_ne hji]
      exact h.passive j hj
  · intro w hw
    obtain ⟨hbegun, hwp⟩ := h.active w hw
    have hwi : w ≠ i := fun heq => hi (heq ▸ hw)
    rw [howned w hw]
    dsimp only
    rw [Function.update_of_ne hwi]
    exact ⟨hbegun, hwp⟩
  · rw [hplacedIn, h.placed]
    cases owner with
    | none => rfl
    | some w => exact congrArg (fun own => (tally own).placed) (howned w rfl).symm
  · rw [hwrittenIn, h.written]
    cases owner with
    | none => rfl
    | some w => exact congrArg (fun own => (tally own).written) (howned w rfl).symm
  · rw [hplacedIn]
    exact h.orders
  · rw [hwrittenIn]
    exact h.decisions
  · rw [hwrittenIn]
    exact h.pending
  · rw [hwrittenIn]
    exact h.resolved

/-- A run without an owner: what an owner that has ended leaves when nothing was written. -/
theorem Owned.release {start : Approvals ι} {owner : Option ι}
    (h : Owned start record₀ owner marks p) (hwritten : writtenIn marks = 0)
    (hended : ∀ w, owner = some w → ∃ outcome, p.tasks w = .done outcome) :
    Owned start record₀ none marks p := by
  cases owner with
  | none => exact h
  | some w =>
    obtain ⟨outcome, hdone⟩ := hended w rfl
    obtain ⟨-, hwp⟩ := h.active w rfl
    rw [hdone] at hwp
    have hend := hwp.post fun _ => rfl
    have hw : (tally (Pool.own w marks)).written = 0 := h.written.symm.trans hwritten
    have hpl := hend.unplaced hw
    refine ⟨?_, nofun, h.placed.trans hpl, hwritten, h.orders, h.decisions, h.pending, h.resolved⟩
    intro j _
    by_cases hjw : j = w
    · subst hjw
      refine .inr ⟨hpl, hw, ?_⟩
      rw [hdone]
      cases outcome with
      | ok response => exact absurd hw (hend.returned response rfl)
      | error e => exact idles_raise e
    · exact h.passive j fun heq => hjw (Option.some.inj heq).symm

/-- A request becomes the owner when it reads the record that awaits a human. -/
theorem Owned.claim {start : Approvals ι} {i : ι} {mark : ApiMark}
    {t : Endpoint Await Answer ApprovalResponse} (h : Owned start record₀ none marks p)
    (hquiet : mark.call.Quiet)
    (hwp : Wp Eq Undisturbed (Kept record₀.executionId)
      (Ended record₀.executionId record₀.competitionId) (Pool.own i marks ++ [mark]) p.shared t)
    (hplaced : (tally (Pool.own i marks)).placed = 0)
    (hwritten : (tally (Pool.own i marks)).written = 0) :
    Owned start record₀ (some i) (marks ++ [(i, mark)])
      ⟨p.shared, Function.update p.tasks i t⟩ := by
  have hwrites := actedBy_writes_of_quiet hquiet
  have hplacedIn : placedIn (marks ++ [(i, mark)]) = 0 := by
    simp [placedIn_snoc, hquiet.places, h.placed]
  have hwrittenIn : writtenIn (marks ++ [(i, mark)]) = 0 := by
    simp [writtenIn_snoc, hwrites, h.written]
  refine ⟨?_, ?_, ?_, ?_, ?_, ?_, ?_, ?_⟩
  · intro j hj
    have hij : i ≠ j := fun heq => hj (congrArg some heq)
    rw [Pool.own_snoc_of_ne hij]
    dsimp only
    rw [Function.update_of_ne hij.symm]
    exact h.passive j nofun
  · intro w hw
    obtain rfl := Option.some.inj hw
    rw [Pool.own_snoc_self]
    dsimp only
    rw [Function.update_self]
    exact ⟨by simp, hwp⟩
  · rw [hplacedIn, Option.elim_some, Pool.own_snoc_self, tally_quiet _ hquiet, hplaced]
  · rw [hwrittenIn, Option.elim_some, Pool.own_snoc_self, tally_quiet _ hquiet, hwritten]
  · rw [hplacedIn]
    exact Nat.zero_le _
  · rw [hwrittenIn]
    exact Nat.zero_le _
  · intro _
    exact h.pending h.written
  · intro hne
    exact absurd hwrittenIn hne

/-- **An orderly step** keeps what is owned. -/
theorem Owned.step {start : Approvals ι} {owner : Option ι} {i : ι} {mark : ApiMark} {p' : Approvals ι}
    (hstart : ∀ i, ∃ principal note, start.tasks i = approveExecution format sha256 policyHash
      record₀.executionId principal note)
    (h : Owned start record₀ owner marks p) (horderly : Orderly record₀.executionId marks p i mark)
    (hstep : p.Step i mark p') : ∃ owner', Owned start record₀ owner' (marks ++ [(i, mark)]) p' := by
  obtain ⟨hstep⟩ := hstep
  by_cases hi : owner = some i
  · subst hi
    exact ⟨some i, h.step_owner horderly.undisturbed hstep⟩
  rcases h.passive i hi with ⟨hown, hfresh⟩ | ⟨hplaced, hwritten, hidle⟩
  · obtain ⟨principal, note, htask⟩ := hstart i
    rw [hfresh, htask] at hstep
    obtain ⟨rfl, hcall, hnext⟩ := approveExecution_step hstep
    have hquiet : mark.call.Quiet := by
      rw [hcall]
      exact ⟨rfl, rfl, rfl⟩
    have htally : tally (Pool.own i marks ++ [mark]) = ⟨0, 0, 0⟩ := by
      rw [tally_quiet _ hquiet, hown]
      rfl
    rcases hnext with ⟨e, rfl⟩ | ⟨hmark, record, hrecord, rfl⟩
    · exact ⟨owner, h.step_other hi hquiet (idles_raise e) (by rw [hown]; rfl) (by rw [hown]; rfl)⟩
    · by_cases hawaits : record.status = .awaitingHuman
      · have hunwritten : writtenIn marks = 0 := by
          by_contra hne
          obtain ⟨record', hrecord', hresolved⟩ := h.resolved hne
          rw [hrecord] at hrecord'
          obtain rfl := Option.some.inj hrecord'
          exact hresolved hawaits
        have hsame : record = record₀ :=
          Option.some.inj (hrecord.symm.trans (h.pending hunwritten))
        subst hsame
        have hreleased := h.release hunwritten fun w hw => horderly.alone hmark record hrecord
          hawaits w (fun heq => hi (heq ▸ hw)) (h.active w hw).1
        refine ⟨some i, hreleased.claim hquiet ?_ (by rw [hown]; rfl) (by rw [hown]; rfl)⟩
        exact wp_approveRecord rfl hawaits htally
      · exact ⟨owner, h.step_other hi hquiet (idles_approveRecord hawaits) (by rw [hown]; rfl)
          (by rw [hown]; rfl)⟩
  · obtain ⟨⟨rfl, hquiet⟩, hnext⟩ := Wp.step (fun _ => trivial) hidle hstep trivial
    exact ⟨owner, h.step_other hi hquiet hnext hplaced hwritten⟩

end Runs

section Witness

end Witness

end Veridex.Api
