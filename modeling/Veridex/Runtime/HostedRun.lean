import Veridex.Runtime.MmAgentAdapter

/-!
# The life of a hosted run

One run among any number of cancel calls, interleaved in any way. `Lifecycle` is what the adapter
promises of it: one kill, by the owner; a phase that settles and stays; one terminal status, and none
after a cancel.

* `Hosted` is the invariant: a run that waits, that is driven, that has ended.
* `lifecycle_iff` says when the promise is kept, `cancelled_run_breaks` that it need not be.
-/

namespace Veridex.Runtime

open Veridex.Lib Veridex.Py Task Pool

variable {ρ ι : Type}

/-- A step, with the task it is of: `none` for the run, `some i` for a cancel call. -/
abbrev HostedMark (ι : Type) := Option ι × Mark AdapterCall Unit AdapterError

/-- A run and its cancel calls. -/
abbrev AdapterPool (ρ ι : Type) :=
  Pool VeridexAgentAdapter (Option ι) AdapterCall Unit AdapterError (Reply ρ)

/-- Every step is taken: none of them awaits what can fail. -/
def Taken (_ : List (HostedMark ι)) (_ : AdapterPool ρ ι) (_ : Option ι)
    (mark : Mark AdapterCall Unit AdapterError) : Prop :=
  ∃ call, mark = .acted call

namespace VeridexAgentAdapter

/-- `run_phase`. -/
def runPhase (adapter : VeridexAgentAdapter) (runId : String) : Option RunPhase :=
  (adapter.runs runId).map RunEntry.phase

/-- How often the stop signal of a run was set. -/
def stopSets (adapter : VeridexAgentAdapter) (runId : String) : ℕ :=
  ((adapter.runs runId).map fun entry => entry.stop.sets).getD 0

end VeridexAgentAdapter

/-- A call returned that it engaged the kill. -/
def Engages (ctx : RunContext) (p : AdapterPool ρ ι) (i : ι) : Prop :=
  ∃ result, p.tasks (some i) = .done (.ok (.cancel result)) ∧ result.runId = ctx.runId ∧
    result.engaged = true

/-- What one step keeps to. -/
structure StepKept (ctx : RunContext) (p : AdapterPool ρ ι) (mark : Mark AdapterCall Unit AdapterError)
    (p' : AdapterPool ρ ι) : Prop where
  owner : p'.shared.stopSets ctx.runId ≠ p.shared.stopSets ctx.runId →
    mark = .acted (.acancelRun ctx.runId (some ctx.ownerDid))
  stays : ∀ phase, p.shared.runPhase ctx.runId = some phase → phase.isTerminal = true →
    p'.shared.runPhase ctx.runId = some phase
  silent : (∃ i, Engages ctx p i) → p'.shared.emitted = p.shared.emitted

/-- What the adapter promises of a run. -/
structure Lifecycle [DecidableEq ι] (ctx : RunContext) (start : AdapterPool ρ ι)
    (marks : List (HostedMark ι)) (p : AdapterPool ρ ι) : Prop where
  once : p.shared.stopSets ctx.runId ≤ 1
  engaged : ∀ i j, Engages ctx p i → Engages ctx p j → i = j
  settled : (∃ outcome, p.tasks none = .done outcome) →
    ∃ phase, p.shared.runPhase ctx.runId = some phase ∧ phase.isTerminal = true
  emitted : p.shared.emitted.length ≤ 1
  steps : ∀ before i mark after p₁ p₂, marks = before ++ (i, mark) :: after →
    Run Taken start before p₁ → p₁.Step i mark p₂ → StepKept ctx p₁ mark p₂

/-- The owner has cancelled a run that was attached. -/
def OwnerCancelled (ctx : RunContext) (marks : List (HostedMark ι)) : Prop :=
  ∃ before i after,
    marks = before ++ (some i, .acted (.acancelRun ctx.runId (some ctx.ownerDid))) :: after ∧
      (none, .acted .attach) ∈ before

/-- The driver of a run ends as the adapter can tell: it returns, or raises an `Exception` before the
owner has cancelled. -/
def EndsPlainly (ctx : RunContext) (ending : Except PyExc ρ) (marks : List (HostedMark ι)) : Prop :=
  ∀ before after, marks = before ++ (none, .acted .driverEnds) :: after →
    ∀ e, ending = .error e → e.isException = true ∧ ¬ OwnerCancelled ctx before

/-! ## Cancel calls -/

theorem ownerCancelled_snoc {ctx : RunContext} {marks : List (HostedMark ι)} {i : Option ι}
    {mark : Mark AdapterCall Unit AdapterError} : OwnerCancelled ctx (marks ++ [(i, mark)]) ↔
      OwnerCancelled ctx marks ∨ (none, .acted .attach) ∈ marks ∧ i ≠ none ∧
        mark = .acted (.acancelRun ctx.runId (some ctx.ownerDid)) := by
  constructor
  · rintro ⟨before, j, after, hmarks, hattach⟩
    rcases List.eq_nil_or_concat after with rfl | ⟨after, last, rfl⟩
    · obtain ⟨rfl, hlast⟩ := List.append_inj' hmarks rfl
      obtain ⟨rfl, rfl⟩ := Prod.mk.inj (List.singleton_inj.mp hlast)
      exact .inr ⟨hattach, Option.some_ne_none j, rfl⟩
    · rw [List.concat_eq_append, ← List.cons_append, ← List.append_assoc] at hmarks
      exact .inl ⟨before, j, after, (List.append_inj' hmarks rfl).1, hattach⟩
  · rintro (⟨before, j, after, rfl, hattach⟩ | ⟨hattach, hi, rfl⟩)
    · exact ⟨before, j, after ++ [(i, mark)], by simp, hattach⟩
    · obtain ⟨j, rfl⟩ := Option.ne_none_iff_exists'.mp hi
      exact ⟨marks, j, [], rfl, hattach⟩

/-- **A cancel call** engages the run of its principal while it is active, or changes nothing. -/
theorem acancelRun_cases (adapter : VeridexAgentAdapter) (runId : String) (ownerDid : Option String) :
    (∃ entry, adapter.runs runId = some entry ∧ ownerDid = some entry.ownerDid ∧
      entry.phase = .active ∧ adapter.acancelRun runId ownerDid =
        (.ok ⟨runId, .cancelling, true⟩, { adapter with
          runs := Function.update adapter.runs runId <| some {
            entry with phase := .cancelling, stop := entry.stop.set } })) ∨
      (adapter.acancelRun runId ownerDid).2 = adapter ∧
      (∀ result, (adapter.acancelRun runId ownerDid).1 = .ok result → result.engaged = false) ∧
        ∀ entry, adapter.runs runId = some entry → ownerDid = some entry.ownerDid →
          entry.phase ≠ .active := by
  unfold VeridexAgentAdapter.acancelRun
  cases hentry : adapter.runs runId with
  | none => exact .inr ⟨rfl, nofun, nofun⟩
  | some entry =>
    dsimp only
    by_cases howner : ownerDid ≠ some entry.ownerDid
    · rw [if_pos howner]
      refine .inr ⟨rfl, nofun, fun entry' hentry' howner' => ?_⟩
      obtain rfl := Option.some.inj hentry'
      exact absurd howner' howner
    · rw [if_neg howner]
      by_cases hphase : entry.phase ≠ .active
      · rw [if_pos hphase]
        refine .inr ⟨rfl, fun result hresult => ?_, fun entry' hentry' _ => ?_⟩
        · obtain rfl := Except.ok.inj hresult
          rfl
        · obtain rfl := Option.some.inj hentry'
          exact hphase
      · rw [if_neg hphase]
        exact .inl ⟨entry, rfl, not_not.mp howner, not_not.mp hphase, rfl⟩

/-! ## The invariant -/

/-- An entry of a run: its stop signal was set once at most, and not while it is active. -/
structure EntryOf (ctx : RunContext) (entry : RunEntry) : Prop where
  owner : entry.ownerDid = ctx.ownerDid
  once : entry.stop.sets ≤ 1
  active : entry.phase = .active → entry.stop.sets = 0
  cancelling : entry.phase = .cancelling → entry.stop.sets = 1

/-- A run waits, is driven, or has ended. -/
inductive Hosted (terminalReason : ρ → Option String) (ctx : RunContext) (ending : Except PyExc ρ)
    (marks : List (HostedMark ι)) (p : AdapterPool ρ ι) : Prop
  | waiting (task : p.tasks none = startRun terminalReason ctx ending)
      (unknown : p.shared.runs ctx.runId = none) (silent : p.shared.emitted = [])
      (unattached : (none, .acted .attach) ∉ marks) (pending : (none, .acted .driverEnds) ∉ marks)
  | driving (entry : RunEntry) (task : p.tasks none = awaitDriver terminalReason ctx ending)
      (stored : p.shared.runs ctx.runId = some entry) (sound : EntryOf ctx entry)
      (silent : p.shared.emitted = []) (attached : (none, .acted .attach) ∈ marks)
      (pending : (none, .acted .driverEnds) ∉ marks)
      (live : entry.phase.isTerminal = false)
      (cancelled : OwnerCancelled ctx marks ↔ entry.phase = .cancelling)
  | ended (entry : RunEntry) (outcome : Except AdapterError (Reply ρ))
      (task : p.tasks none = .done outcome) (finished : (none, .acted .driverEnds) ∈ marks)
      (stored : p.shared.runs ctx.runId = some entry)
      (sound : EntryOf ctx entry) (emitted : p.shared.emitted.length ≤ 1)
      (settled : entry.phase.isTerminal = true ↔ ∀ e, ending = .error e → e.isException = true)

/-- The invariant of a run and its cancel calls. -/
structure HostInv (terminalReason : ρ → Option String) (ctx : RunContext) (ending : Except PyExc ρ)
    (cancels : ι → String × Option String) (marks : List (HostedMark ι)) (p : AdapterPool ρ ι) :
    Prop where
  hosted : Hosted terminalReason ctx ending marks p
  calls : ∀ i, p.tasks (some i) = cancelCall ρ (cancels i).1 (cancels i).2 ∨
    ∃ outcome, p.tasks (some i) = .done outcome
  engaged : (∃ i, Engages ctx p i) ↔ p.shared.stopSets ctx.runId ≠ 0
  unique : ∀ i j, Engages ctx p i → Engages ctx p j → i = j

section Steps

variable {terminalReason : ρ → Option String} {ctx : RunContext}
  {ending : Except PyExc ρ} {cancels : ι → String × Option String} {marks : List (HostedMark ι)}
  {p : AdapterPool ρ ι}

/-- A step of another run, or of a call that is refused. -/
theorem Hosted.quiet {p' : AdapterPool ρ ι} {i : ι} {mark : Mark AdapterCall Unit AdapterError}
    (h : Hosted terminalReason ctx ending marks p) (htask : p'.tasks none = p.tasks none)
    (hruns : p'.shared.runs ctx.runId = p.shared.runs ctx.runId)
    (hemitted : p'.shared.emitted = p.shared.emitted)
    (hmark : mark = .acted (.acancelRun ctx.runId (some ctx.ownerDid)) → ∀ entry,
      p.shared.runs ctx.runId = some entry → entry.ownerDid = ctx.ownerDid →
        entry.phase ≠ .active) :
    Hosted terminalReason ctx ending (marks ++ [(some i, mark)]) p' := by
  have hother : ∀ mark', (none, mark') ∈ marks ++ [(some i, mark)] → (none, mark') ∈ marks := by
    intro mark' hmem
    rcases List.mem_append.mp hmem with hmem | hmem
    · exact hmem
    · exact nomatch (Prod.mk.inj (List.mem_singleton.mp hmem)).1
  cases h with
  | waiting task unknown silent unattached pending =>
    exact .waiting (htask.trans task) (hruns.trans unknown) (hemitted.trans silent)
      (fun hmem => unattached (hother _ hmem)) fun hmem => pending (hother _ hmem)
  | driving entry task stored sound silent attached pending live cancelled =>
    refine .driving entry (htask.trans task) (hruns.trans stored) sound (hemitted.trans silent)
      (List.mem_append_left _ attached) (fun hmem => pending (hother _ hmem)) live ?_
    rw [ownerCancelled_snoc, cancelled]
    refine ⟨?_, .inl⟩
    rintro (hphase | ⟨-, -, hown⟩)
    · exact hphase
    · have hactive := hmark hown entry stored sound.owner
      cases hphase : entry.phase with
      | active => exact absurd hphase hactive
      | cancelling => rfl
      | completed | failed | cancelled =>
        rw [hphase] at live
        exact nomatch live
  | ended entry outcome task finished stored sound emitted settled =>
    exact .ended entry outcome (htask.trans task) (List.mem_append_left _ finished)
      (hruns.trans stored) sound
      (hemitted ▸ emitted) settled

/-- The entry of a run is sound. -/
theorem Hosted.sound {entry : RunEntry} (h : Hosted terminalReason ctx ending marks p)
    (hentry : p.shared.runs ctx.runId = some entry) : EntryOf ctx entry := by
  cases h with
  | waiting task unknown => exact nomatch unknown.symm.trans hentry
  | driving entry' task stored sound =>
    obtain rfl := Option.some.inj (stored.symm.trans hentry)
    exact sound
  | ended entry' outcome task finished stored sound =>
    obtain rfl := Option.some.inj (stored.symm.trans hentry)
    exact sound

variable [DecidableEq ι]

/-- The pool, where a cancel call has returned. -/
def afterCancel (p : AdapterPool ρ ι) (j : ι) (outcome : Except AdapterError CancelResult)
    (s : VeridexAgentAdapter) : AdapterPool ρ ι :=
  ⟨s, Function.update p.tasks (some j) (.done (outcome.map .cancel))⟩

theorem afterCancel_run (p : AdapterPool ρ ι) (j : ι) (outcome : Except AdapterError CancelResult)
    (s : VeridexAgentAdapter) : (afterCancel p j outcome s).tasks none = p.tasks none := by
  have hne : none ≠ some j := (Option.some_ne_none j).symm
  exact Function.update_of_ne hne (.done (outcome.map .cancel)) p.tasks

/-- Who has engaged, after a cancel call has returned. -/
theorem engages_afterCancel {s : VeridexAgentAdapter} {j : ι}
    {outcome : Except AdapterError CancelResult}
    (hj : p.tasks (some j) = cancelCall ρ (cancels j).1 (cancels j).2) {i : ι} :
    Engages ctx (afterCancel p j outcome s) i ↔
      Engages ctx p i ∨ i = j ∧ ∃ result, outcome = .ok result ∧ result.runId = ctx.runId ∧
        result.engaged = true := by
  have hbefore : ¬ Engages ctx p j := by
    rintro ⟨result, htask, -⟩
    exact nomatch hj.symm.trans htask
  unfold Engages afterCancel
  by_cases hij : i = j
  · subst hij
    simp only [Function.update_self, true_and]
    constructor
    · rintro ⟨result, htask, hresult⟩
      cases outcome with
      | error e => exact nomatch htask
      | ok result' =>
        obtain rfl := Reply.cancel.inj (Except.ok.inj (Task.done.inj htask))
        exact .inr ⟨result', rfl, hresult⟩
    · rintro (hengaged | ⟨result, rfl, hresult⟩)
      · exact absurd hengaged hbefore
      · exact ⟨result, rfl, hresult⟩
  · have hne : some i ≠ some j := fun h => hij (Option.some.inj h)
    simp only [Function.update_of_ne hne, hij, false_and, or_false]

/-- A cancel call is still to come, or has returned. -/
theorem calls_afterCancel {s : VeridexAgentAdapter} {j : ι}
    {outcome : Except AdapterError CancelResult}
    (h : ∀ i, p.tasks (some i) = cancelCall ρ (cancels i).1 (cancels i).2 ∨
      ∃ outcome, p.tasks (some i) = .done outcome) (i : ι) :
    (afterCancel p j outcome s).tasks (some i) = cancelCall ρ (cancels i).1 (cancels i).2 ∨
      ∃ outcome', (afterCancel p j outcome s).tasks (some i) = .done outcome' := by
  unfold afterCancel
  by_cases hij : i = j
  · subst hij
    exact .inr ⟨_, Function.update_self ..⟩
  · have hne : some i ≠ some j := fun h => hij (Option.some.inj h)
    simpa only [Function.update_of_ne hne] using h i

/-- A cancel call that leaves the run as it is. -/
theorem HostInv.quiet {j : ι} {outcome : Except AdapterError CancelResult} {s : VeridexAgentAdapter}
    {mark : Mark AdapterCall Unit AdapterError}
    (h : HostInv terminalReason ctx ending cancels marks p)
    (hj : p.tasks (some j) = cancelCall ρ (cancels j).1 (cancels j).2)
    (hruns : s.runs ctx.runId = p.shared.runs ctx.runId) (hemitted : s.emitted = p.shared.emitted)
    (hrefused : ∀ result, outcome = .ok result → result.runId = ctx.runId → result.engaged = false)
    (hmark : mark = .acted (.acancelRun ctx.runId (some ctx.ownerDid)) → ∀ entry,
      p.shared.runs ctx.runId = some entry → entry.ownerDid = ctx.ownerDid →
        entry.phase ≠ .active) :
    HostInv terminalReason ctx ending cancels (marks ++ [(some j, mark)])
      (afterCancel p j outcome s) ∧ StepKept ctx p mark (afterCancel p j outcome s) := by
  have hsame : ∀ i, Engages ctx (afterCancel p j outcome s) i ↔ Engages ctx p i := by
    intro i
    rw [engages_afterCancel hj, or_iff_left]
    rintro ⟨-, result, houtcome, hrun, hengaged⟩
    exact Bool.false_ne_true ((hrefused result houtcome hrun).symm.trans hengaged)
  have hstop : (afterCancel p j outcome s).shared.stopSets ctx.runId =
      p.shared.stopSets ctx.runId := by
    unfold VeridexAgentAdapter.stopSets
    rw [afterCancel, hruns]
  refine ⟨⟨?_, calls_afterCancel h.calls, ?_, ?_⟩, ?_, ?_, ?_⟩
  · exact h.hosted.quiet (afterCancel_run ..) hruns hemitted hmark
  · rw [hstop, ← h.engaged]
    exact exists_congr hsame
  · intro i k hi hk
    exact h.unique i k ((hsame i).mp hi) ((hsame k).mp hk)
  · exact fun hne => absurd hstop hne
  · intro phase hphase _
    unfold VeridexAgentAdapter.runPhase at hphase ⊢
    rw [afterCancel, hruns, hphase]
  · exact fun _ => hemitted

/-- The owner's cancel call, of a run that is active. -/
theorem HostInv.engage {j : ι} {entry : RunEntry}
    (h : HostInv terminalReason ctx ending cancels marks p)
    (hj : p.tasks (some j) = cancelCall ρ (cancels j).1 (cancels j).2)
    (hentry : p.shared.runs ctx.runId = some entry) (hactive : entry.phase = .active) :
    let mark : Mark AdapterCall Unit AdapterError :=
      .acted (.acancelRun ctx.runId (some ctx.ownerDid))
    let p' := afterCancel p j (.ok ⟨ctx.runId, .cancelling, true⟩) { p.shared with
      runs := Function.update p.shared.runs ctx.runId <| some {
        entry with phase := .cancelling, stop := entry.stop.set } }
    HostInv terminalReason ctx ending cancels (marks ++ [(some j, mark)]) p' ∧
      StepKept ctx p mark p' := by
  intro mark p'
  have hsound : EntryOf ctx entry := h.hosted.sound hentry
  have hzero : entry.stop.sets = 0 := hsound.active hactive
  have hstored : p'.shared.runs ctx.runId = some {
      entry with phase := .cancelling, stop := entry.stop.set } := Function.update_self ..
  have hsets : entry.stop.set.sets = 1 := by rw [StopSignal.set, hzero]
  have hsound' : EntryOf ctx { entry with phase := .cancelling, stop := entry.stop.set } :=
    ⟨hsound.owner, hsets.le, nofun, fun _ => hsets⟩
  have hnobody : ∀ i, ¬ Engages ctx p i := by
    intro i hi
    refine h.engaged.mp ⟨i, hi⟩ ?_
    rw [VeridexAgentAdapter.stopSets, hentry]
    exact hzero
  have hstop : p'.shared.stopSets ctx.runId = 1 := by
    rw [VeridexAgentAdapter.stopSets, hstored]
    exact hsets
  have hengages : ∀ i, Engages ctx p' i ↔ i = j := by
    intro i
    rw [engages_afterCancel hj, or_iff_right (hnobody i)]
    exact and_iff_left ⟨_, rfl, rfl, rfl⟩
  refine ⟨⟨?_, calls_afterCancel h.calls, ?_, ?_⟩, fun _ => rfl, ?_, ?_⟩
  · cases h.hosted with
    | waiting task unknown silent unattached => exact nomatch unknown.symm.trans hentry
    | driving entry' task stored sound silent attached pending live cancelled =>
      refine .driving _ ((afterCancel_run ..).trans task) hstored hsound' silent
        (List.mem_append_left _ attached) (by simpa using pending) rfl (iff_of_true ?_ rfl)
      exact ownerCancelled_snoc.mpr (.inr ⟨attached, Option.some_ne_none j, rfl⟩)
    | ended entry' outcome task finished stored sound emitted settled =>
      obtain rfl := Option.some.inj (stored.symm.trans hentry)
      refine .ended _ outcome ((afterCancel_run ..).trans task) (List.mem_append_left _ finished)
        hstored hsound' emitted ?_
      rw [← settled, hactive]
      exact Iff.rfl
  · rw [hstop]
    exact iff_of_true ⟨j, (hengages j).mpr rfl⟩ one_ne_zero
  · intro i k hi hk
    exact ((hengages i).mp hi).trans ((hengages k).mp hk).symm
  · intro phase hphase hterminal
    rw [VeridexAgentAdapter.runPhase, hentry] at hphase
    obtain rfl := Option.some.inj hphase
    rw [hactive] at hterminal
    exact nomatch hterminal
  · exact fun hsome => absurd hsome (not_exists.mpr hnobody)

/-- **A cancel call** of a run keeps the invariant. -/
theorem HostInv.cancel {j : ι} (h : HostInv terminalReason ctx ending cancels marks p)
    (hj : p.tasks (some j) = cancelCall ρ (cancels j).1 (cancels j).2) :
    let mark : Mark AdapterCall Unit AdapterError := .acted (.acancelRun (cancels j).1 (cancels j).2)
    let p' := afterCancel p j (p.shared.acancelRun (cancels j).1 (cancels j).2).1
      (p.shared.acancelRun (cancels j).1 (cancels j).2).2
    HostInv terminalReason ctx ending cancels (marks ++ [(some j, mark)]) p' ∧
      StepKept ctx p mark p' := by
  intro mark p'
  obtain ⟨entry, hentry, howner, hactive, hreturns⟩ | ⟨hshared, hrefused, hinactive⟩ :=
    acancelRun_cases p.shared (cancels j).1 (cancels j).2
  · by_cases hrun : (cancels j).1 = ctx.runId
    · rw [hrun] at hentry hreturns
      have hown : (cancels j).2 = some ctx.ownerDid :=
        howner.trans (congrArg some (h.hosted.sound hentry).owner)
      have hmark : mark = .acted (.acancelRun ctx.runId (some ctx.ownerDid)) := by
        simp only [mark, hrun, hown]
      have hp' : p' = afterCancel p j (.ok ⟨ctx.runId, .cancelling, true⟩) { p.shared with
          runs := Function.update p.shared.runs ctx.runId <| some {
            entry with phase := .cancelling, stop := entry.stop.set } } := by
        simp only [p', hrun, hreturns]
      rw [hmark, hp']
      exact h.engage hj hentry hactive
    · have hne : ctx.runId ≠ (cancels j).1 := Ne.symm hrun
      refine h.quiet hj ?_ ?_ ?_ ?_
      · rw [hreturns]
        exact Function.update_of_ne hne ..
      · rw [hreturns]
      · intro result hresult hid
        rw [hreturns] at hresult
        obtain rfl := Except.ok.inj hresult
        exact absurd hid hrun
      · intro hmark
        exact absurd (AdapterCall.acancelRun.inj (Mark.acted.inj hmark)).1 hrun
  · refine h.quiet hj (by rw [hshared]) (by rw [hshared])
      (fun result hresult _ => hrefused result hresult) ?_
    intro hmark entry hentry howner
    obtain ⟨hrun, hown⟩ := AdapterCall.acancelRun.inj (Mark.acted.inj hmark)
    rw [← hrun] at hentry
    exact hinactive entry hentry (hown.trans (congrArg some howner.symm))

/-! ## The run -/

/-- The phase a driver's end leaves. -/
def settledPhase (terminalReason : ρ → Option String) (phase : RunPhase) :
    Except PyExc ρ → RunPhase
  | .error e => if e.isException then .failed else phase
  | .ok result =>
    if phase = .cancelling then .cancelled
    else if terminalReason result == some "frozen" then .failed else .completed

/-- A driver's end is told to the sink. -/
def Told (phase : RunPhase) : Except PyExc ρ → Prop
  | .error e => e.isException = true
  | .ok _ => phase ≠ .cancelling

theorem settledPhase_terminal {phase : RunPhase} (hlive : phase.isTerminal = false) :
    (settledPhase terminalReason phase ending).isTerminal = true ↔
      ∀ e, ending = .error e → e.isException = true := by
  cases ending with
  | error e =>
    rw [settledPhase]
    by_cases he : e.isException = true
    · rw [if_pos he]
      refine iff_of_true rfl fun e' he' => ?_
      obtain rfl := Except.error.inj he'
      exact he
    · rw [if_neg he]
      refine iff_of_false (by simp [hlive]) fun hall => he (hall e rfl)
  | ok result =>
    refine iff_of_true ?_ nofun
    rw [settledPhase]
    split
    · rfl
    · split <;> rfl

/-- A phase that has not settled is what it was. -/
theorem settledPhase_live {phase : RunPhase}
    (h : (settledPhase terminalReason phase ending).isTerminal = false) :
    settledPhase terminalReason phase ending = phase := by
  cases ending with
  | error e =>
    by_cases he : e.isException = true
    · rw [settledPhase, if_pos he] at h
      exact nomatch h
    · rw [settledPhase, if_neg he]
  | ok result =>
    rw [settledPhase] at h
    split at h
    · exact absurd h.symm Bool.false_ne_true
    · split at h <;> exact absurd h.symm Bool.false_ne_true

/-- What a driver's end leaves of an entry is sound. -/
theorem EntryOf.settled {entry : RunEntry} (h : EntryOf ctx entry) :
    EntryOf ctx { entry with phase := settledPhase terminalReason entry.phase ending } := by
  refine ⟨h.owner, h.once, fun hactive => ?_, fun hcancelling => ?_⟩
  · exact h.active ((settledPhase_live (congrArg RunPhase.isTerminal hactive)).symm.trans hactive)
  · exact h.cancelling
      ((settledPhase_live (congrArg RunPhase.isTerminal hcancelling)).symm.trans hcancelling)

variable (terminalReason ending) in
/-- **The end of a driver**: its phase, and the one event that tells of it. -/
theorem settle_spec {adapter : VeridexAgentAdapter} {entry : RunEntry}
    (hentry : adapter.runs ctx.runId = some entry) :
    (adapter.settle terminalReason ctx ending).2.runs ctx.runId =
        some { entry with phase := settledPhase terminalReason entry.phase ending } ∧
      ∃ events, (adapter.settle terminalReason ctx ending).2.emitted = adapter.emitted ++ events ∧
        events.length ≤ 1 ∧ (events ≠ [] ↔ Told entry.phase ending) := by
  cases ending with
  | error e =>
    cases he : e.isException with
    | true =>
      refine ⟨?_, [ctx.terminalStatus true], ?_, le_rfl, iff_of_true (List.cons_ne_nil _ _) he⟩ <;>
        simp [VeridexAgentAdapter.settle, he, VeridexAgentAdapter.emitTerminal,
          VeridexAgentAdapter.setPhase, hentry, settledPhase]
    | false =>
      refine ⟨?_, [], ?_, Nat.zero_le 1, iff_of_false (fun h => h rfl) fun h => ?_⟩
      · simp [VeridexAgentAdapter.settle, he, hentry, settledPhase]
      · simp [VeridexAgentAdapter.settle, he]
      · cases he.symm.trans h
  | ok result =>
    by_cases hphase : entry.phase = .cancelling
    · refine ⟨?_, [], ?_, Nat.zero_le 1, iff_of_false (fun h => h rfl) fun h => h hphase⟩ <;>
        simp [VeridexAgentAdapter.settle, VeridexAgentAdapter.setPhase, hentry, settledPhase, hphase]
    · refine ⟨?_, [ctx.terminalStatus (terminalReason result == some "frozen")], ?_, le_rfl,
        iff_of_true (List.cons_ne_nil _ _) hphase⟩ <;>
        simp [VeridexAgentAdapter.settle, VeridexAgentAdapter.emitTerminal,
          VeridexAgentAdapter.setPhase, hentry, settledPhase, hphase]

/-- The pool, where the run has moved. -/
def afterRun (p : AdapterPool ρ ι) (t : AdapterTask (Reply ρ)) (s : VeridexAgentAdapter) :
    AdapterPool ρ ι :=
  ⟨s, Function.update p.tasks none t⟩

theorem afterRun_call (p : AdapterPool ρ ι) (t : AdapterTask (Reply ρ)) (s : VeridexAgentAdapter)
    (i : ι) : (afterRun p t s).tasks (some i) = p.tasks (some i) :=
  Function.update_of_ne (Option.some_ne_none i) t p.tasks

theorem afterRun_run (p : AdapterPool ρ ι) (t : AdapterTask (Reply ρ)) (s : VeridexAgentAdapter) :
    (afterRun p t s).tasks none = t := by
  rw [afterRun]
  exact Function.update_self none t p.tasks

/-- A run is attached. -/
theorem HostInv.attach (h : HostInv terminalReason ctx ending cancels marks p)
    (hunknown : p.shared.runs ctx.runId = none) (hsilent : p.shared.emitted = [])
    (hunattached : (none, .acted .attach) ∉ marks)
    (hpending : (none, .acted .driverEnds) ∉ marks) :
    let mark : Mark AdapterCall Unit AdapterError := .acted .attach
    let p' := afterRun p (awaitDriver terminalReason ctx ending) (p.shared.attach ctx).2
    HostInv terminalReason ctx ending cancels (marks ++ [(none, mark)]) p' ∧
      StepKept ctx p mark p' := by
  intro mark p'
  have hattach : p.shared.attach ctx = (.ok (), { p.shared with
      runs := Function.update p.shared.runs ctx.runId <| some {
        runId := ctx.runId, ownerDid := ctx.ownerDid, stop := ⟨0⟩, phase := .active } }) := by
    simp [VeridexAgentAdapter.attach, hunknown]
  have hstored : p'.shared.runs ctx.runId = some {
      runId := ctx.runId, ownerDid := ctx.ownerDid, stop := ⟨0⟩, phase := .active } := by
    simp only [p', afterRun, hattach, Function.update_self]
  have hstop : p'.shared.stopSets ctx.runId = p.shared.stopSets ctx.runId := by
    simp only [VeridexAgentAdapter.stopSets, hstored, hunknown]
    rfl
  have hemitted : p'.shared.emitted = p.shared.emitted := by
    simp only [p', afterRun, hattach]
  refine ⟨⟨?_, ?_, ?_, ?_⟩, ?_, ?_, ?_⟩
  · refine .driving _ (afterRun_run ..) hstored ⟨rfl, Nat.zero_le 1, fun _ => rfl, nofun⟩
      (hemitted.trans hsilent) (by simp [mark]) (by simpa [mark] using hpending) rfl
      (iff_of_false ?_ nofun)
    rw [ownerCancelled_snoc]
    rintro (⟨before, i, after, rfl, hbefore⟩ | ⟨-, hne, -⟩)
    · exact hunattached (List.mem_append_left _ hbefore)
    · exact hne rfl
  · intro i
    rw [afterRun_call]
    exact h.calls i
  · rw [hstop, ← h.engaged]
    simp only [Engages, p', afterRun_call]
  · intro i k hi hk
    refine h.unique i k ?_ ?_
    · simpa only [Engages, p', afterRun_call] using hi
    · simpa only [Engages, p', afterRun_call] using hk
  · exact fun hne => absurd hstop hne
  · intro phase hphase
    rw [VeridexAgentAdapter.runPhase, hunknown] at hphase
    exact nomatch hphase
  · exact fun _ => hemitted

/-- A driver ends: the invariant is kept, and so is the promise, unless it raises an `Exception` after
its owner has cancelled. -/
theorem HostInv.driverEnds {entry : RunEntry}
    (h : HostInv terminalReason ctx ending cancels marks p)
    (hentry : p.shared.runs ctx.runId = some entry) (hsound : EntryOf ctx entry)
    (hsilent : p.shared.emitted = []) (hlive : entry.phase.isTerminal = false)
    (hcancelled : OwnerCancelled ctx marks ↔ entry.phase = .cancelling) :
    let mark : Mark AdapterCall Unit AdapterError := .acted .driverEnds
    let p' := afterRun p (.done ((p.shared.settle terminalReason ctx ending).1.map .ran))
      (p.shared.settle terminalReason ctx ending).2
    HostInv terminalReason ctx ending cancels (marks ++ [(none, mark)]) p' ∧
      (StepKept ctx p mark p' ↔
        ∀ e, ending = .error e → e.isException = true → ¬ OwnerCancelled ctx marks) := by
  intro mark p'
  obtain ⟨hstored, events, hevents, hlength, htold⟩ :=
    settle_spec terminalReason ending hentry
  have hstop : p'.shared.stopSets ctx.runId = p.shared.stopSets ctx.runId := by
    simp only [VeridexAgentAdapter.stopSets, p', afterRun, hstored, hentry]
    rfl
  have hemitted : p'.shared.emitted = events := by
    simp only [p', afterRun, hevents, hsilent, List.nil_append]
  have hcancelled' : (∃ i, Engages ctx p i) ↔ OwnerCancelled ctx marks := by
    rw [h.engaged, hcancelled, VeridexAgentAdapter.stopSets, hentry]
    cases hphase : entry.phase with
    | active => simp [hsound.active hphase]
    | cancelling => simp [hsound.cancelling hphase]
    | completed | failed | cancelled =>
      rw [hphase] at hlive
      exact nomatch hlive
  have hquiet : StepKept ctx p mark p' ↔ (OwnerCancelled ctx marks → events = []) := by
    constructor
    · intro hkept hcancel
      exact hemitted.symm.trans ((hkept.silent (hcancelled'.mpr hcancel)).trans hsilent)
    · intro hevents
      refine ⟨fun hne => absurd hstop hne, fun phase hphase hterminal => ?_, fun hsome => ?_⟩
      · rw [VeridexAgentAdapter.runPhase, hentry] at hphase
        obtain rfl := Option.some.inj hphase
        exact nomatch hlive.symm.trans hterminal
      · rw [hemitted, hsilent]
        exact hevents (hcancelled'.mp hsome)
  refine ⟨⟨?_, ?_, ?_, ?_⟩, hquiet.trans ?_⟩
  · exact .ended _ _ (afterRun_run ..) (by simp [mark]) hstored hsound.settled (hemitted ▸ hlength)
      (settledPhase_terminal hlive)
  · intro i
    rw [afterRun_call]
    exact h.calls i
  · rw [hstop, ← h.engaged]
    simp only [Engages, p', afterRun_call]
  · intro i k hi hk
    refine h.unique i k ?_ ?_
    · simpa only [Engages, p', afterRun_call] using hi
    · simpa only [Engages, p', afterRun_call] using hk
  · have hempty : events = [] ↔ ¬ Told entry.phase ending := by rw [← htold, not_not]
    rw [hempty]
    constructor
    · rintro hnot e rfl he hcancel
      exact hnot hcancel he
    · intro hplain hcancel htold
      cases ending with
      | error e => exact hplain e rfl htold hcancel
      | ok result => exact htold (hcancelled.mp hcancel)

/-- **A step** keeps the invariant. -/
theorem HostInv.step {i : Option ι} {mark : Mark AdapterCall Unit AdapterError} {p' : AdapterPool ρ ι}
    (h : HostInv terminalReason ctx ending cancels marks p) (htaken : ∃ call, mark = .acted call)
    (hstep : p.Step i mark p') :
    HostInv terminalReason ctx ending cancels (marks ++ [(i, mark)]) p' ∧
      (StepKept ctx p mark p' ↔ ((i, mark) = (none, .acted .driverEnds) →
        ∀ e, ending = .error e → e.isException = true → ¬ OwnerCancelled ctx marks)) := by
  obtain ⟨call, rfl⟩ := htaken
  obtain ⟨step⟩ := hstep
  cases i with
  | none =>
    cases h.hosted with
    | waiting task unknown silent unattached pending =>
      have hattach : (p.shared.attach ctx).1 = .ok () := by
        simp [VeridexAgentAdapter.attach, unknown]
      rw [task] at step
      cases step with
      | acted =>
        obtain ⟨hinv, hkept⟩ := h.attach unknown silent unattached pending
        have hnext : (Task.done (p.shared.attach ctx).1 : AdapterTask Unit).andThen
            (onValue fun _ => awaitDriver terminalReason ctx ending) =
            awaitDriver terminalReason ctx ending := by
          rw [hattach]
          rfl
        rw [← hnext] at hinv hkept
        exact ⟨hinv, iff_of_true hkept nofun⟩
    | driving entry task stored sound silent attached pending live cancelled =>
      rw [task] at step
      cases step with
      | acted =>
        obtain ⟨hinv, hkept⟩ := h.driverEnds stored sound silent live cancelled
        exact ⟨hinv, hkept.trans ⟨fun hplain _ => hplain, fun hplain => hplain rfl⟩⟩
    | ended entry outcome task =>
      rw [task] at step
      exact absurd step Step.not_done
  | some j =>
    rcases h.calls j with htask | ⟨outcome, htask⟩
    · rw [htask] at step
      cases step with
      | acted =>
        obtain ⟨hinv, hkept⟩ := h.cancel htask
        refine ⟨hinv, iff_of_true hkept fun hmark => ?_⟩
        exact absurd (Prod.mk.inj hmark).1 (Option.some_ne_none j)
    · rw [htask] at step
      exact absurd step Step.not_done

/-- **Every run** keeps the invariant. -/
theorem hostInv_run {runs : String → Option RunEntry} (hnew : runs ctx.runId = none)
    (hrun : Run Taken (hosting terminalReason ctx ending runs cancels) marks p) :
    HostInv terminalReason ctx ending cancels marks p := by
  refine hrun.invariant (HostInv terminalReason ctx ending cancels) ?_ ?_
  · refine ⟨.waiting rfl hnew rfl List.not_mem_nil List.not_mem_nil, fun i => .inl rfl, ?_, ?_⟩
    · have hstop : (hosting terminalReason ctx ending runs cancels).shared.stopSets ctx.runId = 0 := by
        show ((runs ctx.runId).map fun entry => entry.stop.sets).getD 0 = 0
        rw [hnew]
        rfl
      rw [hstop]
      refine iff_of_false ?_ fun hne => hne rfl
      rintro ⟨i, result, htask, -⟩
      exact nomatch htask
    · rintro i j ⟨result, htask, -⟩
      exact nomatch htask
  · intro marks p i mark p' hinv htaken hstep
    exact (hinv.step htaken hstep).1

/-- A run that keeps the promise ends plainly. -/
theorem Lifecycle.endsPlainly {runs : String → Option RunEntry} (hnew : runs ctx.runId = none)
    (hrun : Run Taken (hosting terminalReason ctx ending runs cancels) marks p)
    (hlife : Lifecycle ctx (hosting terminalReason ctx ending runs cancels) marks p) :
    EndsPlainly ctx ending marks := by
  rintro before after rfl e rfl
  have hplain : e.isException = true := by
    cases (hostInv_run hnew hrun).hosted with
    | waiting task unknown silent unattached pending => exact absurd (by simp) pending
    | driving entry task stored sound silent attached pending => exact absurd (by simp) pending
    | ended entry outcome task finished stored sound emitted settled =>
      obtain ⟨phase, hphase, hterminal⟩ := hlife.settled ⟨outcome, task⟩
      rw [VeridexAgentAdapter.runPhase, stored] at hphase
      obtain rfl := Option.some.inj hphase
      exact settled.mp hterminal e rfl
  refine ⟨hplain, ?_⟩
  rw [List.append_cons] at hrun
  obtain ⟨p₂, hbefore, -⟩ := hrun.split
  obtain ⟨p₁, hfirst, htaken, hstep⟩ := hbefore.of_snoc
  have hkept := hlife.steps before none _ after p₁ p₂ rfl hfirst hstep
  exact ((hostInv_run hnew hfirst).step htaken hstep).2.mp hkept rfl e rfl hplain

/-- A run that ends plainly keeps the promise. -/
theorem lifecycle_of_endsPlainly {runs : String → Option RunEntry} (hnew : runs ctx.runId = none)
    (hrun : Run Taken (hosting terminalReason ctx ending runs cancels) marks p)
    (hplain : EndsPlainly ctx ending marks) :
    Lifecycle ctx (hosting terminalReason ctx ending runs cancels) marks p := by
  have hinv := hostInv_run hnew hrun
  refine ⟨?_, hinv.unique, ?_, ?_, ?_⟩
  · cases hentry : p.shared.runs ctx.runId with
    | none => simp [VeridexAgentAdapter.stopSets, hentry]
    | some entry =>
      rw [VeridexAgentAdapter.stopSets, hentry]
      exact (hinv.hosted.sound hentry).once
  · rintro ⟨outcome, hdone⟩
    cases hinv.hosted with
    | waiting task => exact nomatch task.symm.trans hdone
    | driving entry task => exact nomatch task.symm.trans hdone
    | ended entry outcome' task finished stored sound emitted settled =>
      obtain ⟨before, after, hmarks⟩ := List.append_of_mem finished
      refine ⟨entry.phase, ?_, settled.mpr fun e he => (hplain before after hmarks e he).1⟩
      rw [VeridexAgentAdapter.runPhase, stored, Option.map_some]
  · cases hinv.hosted with
    | waiting task unknown silent => simp [silent]
    | driving entry task stored sound silent => simp [silent]
    | ended entry outcome task finished stored sound emitted => exact emitted
  · intro before i mark after p₁ p₂ hmarks hfirst hstep
    rw [hmarks, List.append_cons] at hrun
    obtain ⟨p', hbefore, -⟩ := hrun.split
    obtain ⟨p'', -, htaken, -⟩ := hbefore.of_snoc
    refine ((hostInv_run hnew hfirst).step htaken hstep).2.mpr ?_
    intro hmark e he _
    rw [hmark] at hmarks
    exact (hplain before after hmarks e he).2

end Steps

/-- **The life of a hosted run.** The adapter keeps its promise in every interleaving of a run with
cancel calls, exactly where the driver returns, or raises an `Exception` before its owner cancels. -/
theorem lifecycle_iff [DecidableEq ι] {terminalReason : ρ → Option String} {ctx : RunContext}
    {ending : Except PyExc ρ} {runs : String → Option RunEntry} {cancels : ι → String × Option String}
    {marks : List (HostedMark ι)} {p : AdapterPool ρ ι} (hnew : runs ctx.runId = none)
    (hrun : Run Taken (hosting terminalReason ctx ending runs cancels) marks p) :
    Lifecycle ctx (hosting terminalReason ctx ending runs cancels) marks p ↔
      EndsPlainly ctx ending marks :=
  ⟨Lifecycle.endsPlainly hnew hrun, lifecycle_of_endsPlainly hnew hrun⟩

/-! ## A run that its owner cancels -/

/-- A run of `agent`. -/
def ownedRun : RunContext := ⟨"run", "session", "agent", "owner"⟩

/-- The run, and its owner's cancel call. -/
def ownedHosting (ending : Except PyExc Unit) : AdapterPool Unit Unit :=
  hosting (fun _ => none) ownedRun ending (fun _ => none) fun _ => ("run", some "owner")

/-- The run is attached, and its owner cancels it. -/
def cancelledMarks : List (HostedMark Unit) :=
  [(none, .acted .attach), (some (), .acted (.acancelRun "run" (some "owner")))]

/-- The owner has cancelled the run before its driver ends. -/
theorem ownerCancelled_cancelledMarks : OwnerCancelled ownedRun cancelledMarks :=
  ⟨[(none, .acted .attach)], (), [], rfl, List.mem_singleton_self _⟩

/-- The driver ends after that. -/
theorem cancelledMarks_run (ending : Except PyExc Unit) :
    ∃ p, Run Taken (ownedHosting ending) (cancelledMarks ++ [(none, .acted .driverEnds)]) p := by
  have hattach : Run Taken (ownedHosting ending) [(none, .acted .attach)] _ :=
    Run.snoc .nil ⟨_, rfl⟩ (Step.of_task .acted)
  have hcancel := hattach.snoc (i := some ()) ⟨_, rfl⟩ (Step.of_task .acted)
  exact ⟨_, hcancel.snoc ⟨_, rfl⟩ (Step.of_task .acted)⟩

/-- A driver that returns after a cancel. -/
theorem lifecycle_iff_returned : ∃ p,
    Run Taken (ownedHosting (.ok ())) (cancelledMarks ++ [(none, .acted .driverEnds)]) p ∧
      Lifecycle ownedRun (ownedHosting (.ok ())) (cancelledMarks ++ [(none, .acted .driverEnds)]) p := by
  obtain ⟨p, hrun⟩ := cancelledMarks_run (.ok ())
  exact ⟨p, hrun, (lifecycle_iff rfl hrun).mpr nofun⟩

theorem cancelledMarks_breaks (e : PyExc) : ∃ p,
    Run Taken (ownedHosting (.error e)) (cancelledMarks ++ [(none, .acted .driverEnds)]) p ∧
      ¬ Lifecycle ownedRun (ownedHosting (.error e))
        (cancelledMarks ++ [(none, .acted .driverEnds)]) p := by
  obtain ⟨p, hrun⟩ := cancelledMarks_run (.error e)
  refine ⟨p, hrun, fun hlife => ?_⟩
  have hplain := Lifecycle.endsPlainly rfl hrun hlife cancelledMarks [] rfl e rfl
  exact hplain.2 ownerCancelled_cancelledMarks

/-- **A driver that raises after a cancel**, or that is cancelled itself, breaks the promise: the one
has its run told of as failed, the other leaves it cancelling. -/
theorem cancelled_run_breaks : (∃ p,
    Run Taken (ownedHosting (.error ⟨.exception, "venue"⟩))
        (cancelledMarks ++ [(none, .acted .driverEnds)]) p ∧
      ¬ Lifecycle ownedRun (ownedHosting (.error ⟨.exception, "venue"⟩))
        (cancelledMarks ++ [(none, .acted .driverEnds)]) p) ∧
    ∃ p, Run Taken (ownedHosting (.error ⟨.baseException, ""⟩))
        (cancelledMarks ++ [(none, .acted .driverEnds)]) p ∧
      ¬ Lifecycle ownedRun (ownedHosting (.error ⟨.baseException, ""⟩))
        (cancelledMarks ++ [(none, .acted .driverEnds)]) p :=
  ⟨cancelledMarks_breaks _, cancelledMarks_breaks _⟩

end Veridex.Runtime
