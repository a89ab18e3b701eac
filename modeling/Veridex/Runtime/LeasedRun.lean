import Veridex.Lib.TaskRules
import Veridex.Runtime.MmAgentAdapter

/-!
# The lease of a run (`runtime/agentos_service.py`, `store.py`)

A start claims the one lease of its instance, drives the run, and settles the lease. Any number of
starts interleave over the store; any call may fail, and the adapter ends in any way.

Results: `leases_forward` (a lease never goes back), `leases_kept` (one start of an instance, under the
ids of its lease, which says how it ended).
-/

namespace Veridex.Runtime

open Veridex.Py Veridex.Lib Task Pool

/-! ## The store -/

/-- `LeaseStatus`. -/
inductive LeaseStatus where
  | starting
  | active
  | released
  | failed
  deriving DecidableEq

/-- The status's value. -/
def LeaseStatus.text : LeaseStatus → String
  | starting => "starting"
  | active => "active"
  | released => "released"
  | failed => "failed"

/-- `_LEASE_STATUS_RANK`. -/
def LeaseStatus.rank : LeaseStatus → ℕ
  | starting => 0
  | active => 1
  | released | failed => 2

/-- `InstanceLease`. -/
structure InstanceLease where
  instanceId : String
  runtimeAgentId : String
  sessionId : String
  runId : String
  status : LeaseStatus
  operatorId : String
  createdAt : String
  updatedAt : String

/-- What a start raises. -/
inductive LeaseError where
  | duplicateLease (msg : String)
  | keyError (msg : String)
  | valueError (msg : String)
  | raised (e : PyExc)

/-- `except Exception` catches it. -/
def LeaseError.isException : LeaseError → Bool
  | raised e => e.isException
  | _ => true

/-- `_lease_transition`. -/
def InstanceLease.transition (lease : InstanceLease) (status : LeaseStatus) (updatedAt : String) :
    Except LeaseError InstanceLease :=
  if status = lease.status then .ok lease
  else if status.rank ≤ lease.status.rank then
    .error (.valueError ("illegal lease transition " ++ pyRepr lease.status.text ++ " -> " ++
      pyRepr status.text ++ " for instance " ++ pyRepr lease.instanceId ++
      " (leases are forward-only and never flip a terminal)"))
  else .ok { lease with status, updatedAt }

/-- The leases of the store. -/
abbrev LeaseStore := String → Option InstanceLease

namespace LeaseStore

/-- `acquire_instance_lease`. -/
def acquire (lease : InstanceLease) (s : LeaseStore) : Except LeaseError Unit × LeaseStore :=
  if (s lease.instanceId).isSome then
    (.error (.duplicateLease ("instance already holds a run lease: " ++ pyRepr lease.instanceId)), s)
  else (.ok (), Function.update s lease.instanceId (some lease))

/-- `release_instance_lease`. -/
def release (instanceId : String) (status : LeaseStatus) (updatedAt : String) (s : LeaseStore) :
    Except LeaseError Unit × LeaseStore :=
  match s instanceId with
  | none => (.error (.keyError ("no run lease for instance_id=" ++ pyRepr instanceId)), s)
  | some lease => match lease.transition status updatedAt with
    | .error e => (.error e, s)
    | .ok lease => (.ok (), Function.update s instanceId (some lease))

end LeaseStore

section Forward

/-- A call of the store, whether it returns or raises. -/
inductive LeaseStore.Step (s : LeaseStore) : LeaseStore → Prop
  | acquire (lease : InstanceLease) : Step s (s.acquire lease).2
  | release (instanceId : String) (status : LeaseStatus) (updatedAt : String) :
      Step s (s.release instanceId status updatedAt).2

/-- The lease as it was, or in a later status. -/
def InstanceLease.Precedes (lease lease' : InstanceLease) : Prop :=
  lease' = lease ∨ lease.status.rank < lease'.status.rank ∧
    ∃ status updatedAt, lease' = { lease with status, updatedAt }

theorem InstanceLease.Precedes.trans {a b c : InstanceLease} (h : a.Precedes b) (h' : b.Precedes c) :
    a.Precedes c := by
  rcases h with rfl | ⟨hrank, _, _, rfl⟩
  · exact h'
  · rcases h' with rfl | ⟨hrank', status, updatedAt, rfl⟩
    · exact .inr ⟨hrank, _, _, rfl⟩
    · exact .inr ⟨hrank.trans hrank', status, updatedAt, rfl⟩

variable {s s' : LeaseStore} {instanceId : String} {lease : InstanceLease}

/-- **One call** leaves a lease, or moves it on. -/
theorem LeaseStore.Step.precedes (h : s.Step s') (hlease : s instanceId = some lease) :
    ∃ lease', s' instanceId = some lease' ∧ lease.Precedes lease' := by
  cases h with
  | acquire new =>
    refine ⟨lease, ?_, .inl rfl⟩
    unfold LeaseStore.acquire
    split_ifs with hheld
    · exact hlease
    · refine (Function.update_of_ne ?_ ..).trans hlease
      rintro rfl
      simp [hlease] at hheld
  | release released status updatedAt =>
    by_cases hid : instanceId = released
    · subst hid
      simp only [LeaseStore.release, hlease, InstanceLease.transition]
      split_ifs with hsame hrank
      · exact ⟨lease, Function.update_self .., .inl rfl⟩
      · exact ⟨lease, hlease, .inl rfl⟩
      · exact ⟨_, Function.update_self .., .inr ⟨Nat.lt_of_not_le hrank, _, _, rfl⟩⟩
    · refine ⟨lease, ?_, .inl rfl⟩
      unfold LeaseStore.release
      split
      · exact hlease
      · split
        · exact hlease
        · exact (Function.update_of_ne hid ..).trans hlease

/-- **Leases go forward**: whatever is called of the store, a lease stays that of its run, its status does
not go back, and a settled one stays as it is. -/
theorem leases_forward (h : Relation.ReflTransGen LeaseStore.Step s s')
    (hlease : s instanceId = some lease) : ∃ lease', s' instanceId = some lease' ∧
      lease.Precedes lease' ∧ (lease.status.rank = 2 → lease' = lease) := by
  have hrun : ∃ lease', s' instanceId = some lease' ∧ lease.Precedes lease' := by
    induction h with
    | refl => exact ⟨lease, hlease, .inl rfl⟩
    | tail _ step ih =>
      obtain ⟨middle, hmiddle, hbefore⟩ := ih
      obtain ⟨lease', hlease', hstep⟩ := step.precedes hmiddle
      exact ⟨lease', hlease', hbefore.trans hstep⟩
  obtain ⟨lease', hlease', hprecedes⟩ := hrun
  refine ⟨lease', hlease', hprecedes, fun hsettled => ?_⟩
  rcases hprecedes with rfl | ⟨hrank, -⟩
  · rfl
  · have hle : lease'.status.rank ≤ 2 := by cases lease'.status <;> decide
    omega

/-- A store of released leases. -/
def releasedStore : LeaseStore :=
  fun _ => some ⟨"agent", "runtime", "session", "run", .released, "owner", "0", "2"⟩

/-- A released lease does not fail. -/
theorem leases_forward_released : ∃ lease,
    (releasedStore.release "agent" .failed "3").2 "agent" = some lease ∧ lease.status = .released := by
  obtain ⟨lease, hlease, -, hsettled⟩ := @leases_forward releasedStore _ "agent" _
    (.single (.release "agent" .failed "3")) rfl
  exact ⟨lease, hlease, congrArg _ (hsettled rfl)⟩

end Forward

/-! ## A start -/

/-- The calls of a start. -/
inductive LeaseCall where
  | acquire
  | persist
  | release (status : LeaseStatus)
  | startRun (ctx : RunContext)

/-- A start of a run: its instance and its ids, and what the clock reads. -/
structure LeasedStart where
  instanceId : String
  operatorId : String
  runtimeAgentId : String
  sessionId : String
  runId : String
  claimedAt : String
  activeAt : String
  endedAt : String

/-- A step of a start. -/
abbrev LeaseMark (ρ : Type) := Mark LeaseCall ρ LeaseError

namespace LeasedStart

variable (r : LeasedStart)

/-- The lease of a start, in a status. -/
def lease (status : LeaseStatus) (updatedAt : String) : InstanceLease :=
  ⟨r.instanceId, r.runtimeAgentId, r.sessionId, r.runId, status, r.operatorId, r.claimedAt, updatedAt⟩

/-- What the adapter is asked to run. -/
def ctx : RunContext := ⟨r.runId, r.sessionId, r.runtimeAgentId, r.operatorId⟩

/-- `store.release_instance_lease`. -/
def release {ρ : Type} (status : LeaseStatus) (at' : String) :
    Task LeaseStore LeaseCall ρ LeaseError Unit :=
  perform (.release status) (LeaseStore.release r.instanceId status at')

/-- The `try` of `start_owned_instance_run`. -/
def attached (ρ : Type) : Task LeaseStore LeaseCall ρ LeaseError ρ := do
  -- the instance with its new `runtime_handle`, which no lease reads
  perform .persist fun s => (.ok (), s)
  r.release .active r.activeAt
  request (.startRun r.ctx)

/-- `start_owned_instance_run`. -/
def startOwnedInstanceRun (ρ : Type) : Task LeaseStore LeaseCall ρ LeaseError ρ := do
  perform .acquire (LeaseStore.acquire (r.lease .starting r.claimedAt))
  let result ← (r.attached ρ).catching fun e =>
    (r.release .failed r.endedAt).andThen fun
      -- `contextlib.suppress(Exception)`
      | .error e' => raise (if e'.isException then e else e')
      | .ok () => raise e
  r.release .released r.endedAt
  return result

/-! ## What one start keeps -/

variable {ρ : Type} {s s' : LeaseStore} {marks : List (LeaseMark ρ)}
  {status status' : LeaseStatus} {at' at'' : String}

/-- The lease of the instance is that of the start. -/
def Holds (status : LeaseStatus) (updatedAt : String) (s : LeaseStore) : Prop :=
  s r.instanceId = some (r.lease status updatedAt)

/-- It is, in some status. -/
def Held (s : LeaseStore) : Prop := ∃ status updatedAt, r.Holds status updatedAt s

/-- What other starts leave: a lease under the ids of this one. -/
def Rely (s s' : LeaseStore) : Prop :=
  ∀ lease, s r.instanceId = some lease → lease.runId = r.runId →
    s' r.instanceId = some lease

/-- What each step of a start keeps. -/
structure Keeps (mark : LeaseMark ρ) (s s' : LeaseStore) : Prop where
  others : ∀ instanceId lease, s instanceId = some lease → lease.runId ≠ r.runId →
    s' instanceId = some lease
  own : r.Held s → r.Held s'
  starts : ∀ ctx, mark.call = .startRun ctx → ctx = r.ctx ∧ r.Held s

/-- How a start ends: its lease is released when it returns; when it raises, its lease has failed, unless
the instance was leased, or the store failed to claim or move the lease. -/
def Ended (marks : List (LeaseMark ρ)) (s : LeaseStore) : Except LeaseError ρ → Prop
  | .ok _ => r.Holds .released r.endedAt s
  | .error e => (∃ msg, e = .duplicateLease msg) ∨
    (∃ call e', .failed call e' ∈ marks ∧ (call = .acquire ∨ ∃ status, call = .release status)) ∨
    r.Holds .failed r.endedAt s

variable {r}

theorem rely_refl (s : LeaseStore) : r.Rely s s := fun _ h _ => h

theorem rely_trans (a b c : LeaseStore) (h : r.Rely a b) (h' : r.Rely b c) : r.Rely a c :=
  fun lease hlease hrun => h' lease (h lease hlease hrun) hrun

theorem Holds.rely (h : r.Holds status at' s) (hrely : r.Rely s s') : r.Holds status at' s' :=
  hrely _ h rfl

/-- A step that leaves the leases. -/
theorem Keeps.of_idle {mark : LeaseMark ρ}
    (hstarts : ∀ ctx, mark.call = .startRun ctx → ctx = r.ctx ∧ r.Held s) : r.Keeps mark s s :=
  ⟨fun _ _ h _ => h, id, hstarts⟩

/-- A step that writes the start's own lease, over none or its own. -/
theorem Keeps.of_update {mark : LeaseMark ρ}
    (hown : ∀ lease, s r.instanceId = some lease → lease.runId = r.runId)
    (hcall : ∀ ctx, mark.call ≠ .startRun ctx) :
    r.Keeps mark s (Function.update s r.instanceId (some (r.lease status at'))) where
  others := by
    intro instanceId lease h hrun
    have hne : instanceId ≠ r.instanceId := by
      rintro rfl
      exact hrun (hown lease h)
    rw [Function.update_of_ne hne, h]
  own := fun _ => ⟨status, at', Function.update_self ..⟩
  starts := fun ctx h => absurd h (hcall ctx)

/-- The logic of one start: the others move the leases of other starts. -/
abbrev Proves {α : Type} (r : LeasedStart)
    (Post : List (LeaseMark ρ) → LeaseStore → Except LeaseError α → Prop) :=
  Wp (α := α) r.Rely (fun _ _ => True) (fun _ => r.Keeps) Post

/-- **A release** moves the start's own lease. -/
theorem proves_release
    {Post : List (LeaseMark ρ) → LeaseStore → Except LeaseError Unit → Prop}
    (hholds : r.Holds status at' s) (hrank : status.rank < status'.rank)
    (hmoved : ∀ s', r.Holds status' at'' s' → Post (marks ++ [.acted (.release status')]) s' (.ok ()))
    (hfailed : ∀ s' e, r.Holds status at' s' →
      Post (marks ++ [.failed (.release status') e]) s' (.error e)) :
    r.Proves Post marks s (r.release status' at'') := by
  refine wp_perform (fun s₁ hrely _ => ?_) fun s₁ e hrely _ => ?_
  · have hlease : s₁ r.instanceId = some (r.lease status at') := hholds.rely hrely
    have hmoves : (r.lease status at').transition status' at'' = .ok (r.lease status' at'') := by
      have hne : status' ≠ status := fun h => hrank.ne (congrArg _ h.symm)
      exact (if_neg hne).trans (if_neg hrank.not_ge)
    have hmethod : LeaseStore.release r.instanceId status' at'' s₁ =
        (.ok (), Function.update s₁ r.instanceId (some (r.lease status' at''))) := by
      simp only [LeaseStore.release, hlease, hmoves]
    rw [hmethod]
    refine ⟨.of_update (fun lease h => ?_) nofun, fun s₂ hrely₂ => hmoved s₂ ?_⟩
    · obtain rfl := Option.some.inj (hlease.symm.trans h)
      rfl
    · exact hrely₂ _ (Function.update_self ..) rfl
  · exact ⟨.of_idle nofun, fun s₂ hrely₂ => hfailed s₂ e ((hholds.rely hrely).rely hrely₂)⟩

/-- **The attached run** returns or raises with the lease not settled. -/
theorem proves_attached
    {Post : List (LeaseMark ρ) → LeaseStore → Except LeaseError ρ → Prop}
    (hholds : r.Holds .starting r.claimedAt s)
    (hreturned : ∀ marks s result, r.Holds .active r.activeAt s → Post marks s (.ok result))
    (hraised : ∀ marks s e status at', r.Holds status at' s → status.rank < 2 →
      Post marks s (.error e)) : r.Proves Post marks s (r.attached ρ) := by
  refine wp_bind rely_refl (wp_perform (fun s₁ hrely _ => ?_) fun s₁ e hrely _ => ?_)
  · refine ⟨.of_idle nofun, fun s₂ hrely₂ => ?_⟩
    have hholds₂ : r.Holds .starting r.claimedAt s₂ := hrely₂ _ (hholds.rely hrely) rfl
    refine wp_bind rely_refl (proves_release hholds₂ (by decide) (fun s₃ hholds₃ => ?_)
      fun s₃ e hholds₃ s₄ hrely₄ => hraised _ _ _ _ _ (hholds₃.rely hrely₄) (by decide))
    have hstarts : ∀ s₄, r.Rely s₃ s₄ → ∀ ctx, LeaseCall.startRun r.ctx = .startRun ctx →
        ctx = r.ctx ∧ r.Held s₄ := fun s₄ hrely₄ ctx hctx =>
      ⟨(LeaseCall.startRun.inj hctx).symm, _, _, hholds₃.rely hrely₄⟩
    refine wp_request (fun s₄ result hrely₄ _ => ?_) fun s₄ e hrely₄ _ => ?_
    · exact ⟨.of_idle (hstarts s₄ hrely₄), fun s₅ hrely₅ =>
        hreturned _ _ _ ((hholds₃.rely hrely₄).rely hrely₅)⟩
    · exact ⟨.of_idle (hstarts s₄ hrely₄), fun s₅ hrely₅ =>
        hraised _ _ _ _ _ ((hholds₃.rely hrely₄).rely hrely₅) (by decide)⟩
  · exact ⟨.of_idle nofun, fun s₂ hrely₂ s₃ hrely₃ =>
      hraised _ _ _ _ _ (((hholds.rely hrely).rely hrely₂).rely hrely₃) (by decide)⟩

/-- **A start** keeps to its own lease, and says how it ended. -/
theorem proves_start : r.Proves r.Ended marks s (r.startOwnedInstanceRun ρ) := by
  refine wp_bind rely_refl (wp_perform (fun s₁ _ _ => ?_) fun s₁ e _ _ => ?_)
  · by_cases hheld : (s₁ r.instanceId).isSome
    · rw [show LeaseStore.acquire (r.lease .starting r.claimedAt) s₁ = (.error _, s₁) from
        if_pos hheld]
      exact ⟨.of_idle nofun, fun s₂ _ s₃ _ => .inl ⟨_, rfl⟩⟩
    · rw [show LeaseStore.acquire (r.lease .starting r.claimedAt) s₁ = (.ok (), _) from if_neg hheld]
      have hnone : s₁ r.instanceId = none := Option.not_isSome_iff_eq_none.mp hheld
      refine ⟨.of_update (fun lease h => ?_) nofun, fun s₂ hrely₂ => ?_⟩
      · exact nomatch hnone.symm.trans h
      · have hholds : r.Holds .starting r.claimedAt s₂ := hrely₂ _ (Function.update_self ..) rfl
        refine wp_bind rely_refl (wp_andThen rely_refl (proves_attached hholds ?_ ?_))
        · intro marks s result hactive
          refine wp_done fun s₃ hrely₃ => ?_
          refine wp_bind rely_refl (proves_release (hactive.rely hrely₃) (by decide)
            (fun s₄ hreleased => wp_done fun s₅ hrely₅ => hreleased.rely hrely₅) ?_)
          exact fun s₄ e _ s₅ _ => .inr (.inl ⟨.release .released, e, by simp, .inr ⟨_, rfl⟩⟩)
        · intro marks s e status at' hstatus hrank
          refine wp_andThen rely_refl (proves_release hstatus hrank (fun s₄ hfailed => ?_) ?_)
          · exact wp_done fun s₅ hrely₅ s₆ hrely₆ =>
              .inr (.inr ((hfailed.rely hrely₅).rely hrely₆))
          · exact fun s₄ e' _ => wp_done fun s₅ _ s₆ _ =>
              .inr (.inl ⟨.release .failed, e', by simp, .inr ⟨_, rfl⟩⟩)
  · exact ⟨.of_idle nofun, fun s₂ _ s₃ _ => .inr (.inl ⟨_, e, by simp, .inl rfl⟩)⟩

end LeasedStart

/-! ## Starts that interleave -/

variable {ρ ι : Type} [DecidableEq ι] {starts : ι → LeasedStart} {store : LeaseStore}
  {marks : List (ι × LeaseMark ρ)} {p : Pool LeaseStore ι LeaseCall ρ LeaseError ρ}

/-- Any number of starts over a store. -/
def leasing (ρ : Type) (store : LeaseStore) (starts : ι → LeasedStart) :
    Pool LeaseStore ι LeaseCall ρ LeaseError ρ := ⟨store, fun i => (starts i).startOwnedInstanceRun ρ⟩

/-- A run is started under the ids of the lease of its instance, which stays that of the run. -/
def LeasesHeld (starts : ι → LeasedStart) (marks : List (ι × LeaseMark ρ))
    (s : LeaseStore) : Prop :=
  ∀ i mark ctx, (i, mark) ∈ marks → mark.call = .startRun ctx →
    ctx = (starts i).ctx ∧ (starts i).Held s

/-- What the leases promise of the runs so far. -/
structure LeasesKept (starts : ι → LeasedStart) (marks : List (ι × LeaseMark ρ))
    (p : Pool LeaseStore ι LeaseCall ρ LeaseError ρ) : Prop where
  held : LeasesHeld starts marks p.shared
  /-- An instance has one run. -/
  one : ∀ i j mark mark' ctx ctx', (i, mark) ∈ marks → (j, mark') ∈ marks →
    mark.call = .startRun ctx → mark'.call = .startRun ctx' →
    (starts i).instanceId = (starts j).instanceId → i = j
  /-- The lease says how the run ended. -/
  ended : ∀ i outcome, p.tasks i = .done outcome → (starts i).Ended (own i marks) p.shared outcome

/-- **Leases**, over any interleaving of starts whose run ids are their own. -/
theorem leases_kept (hids : Function.Injective fun i => (starts i).runId)
    (h : Run Free (leasing ρ store starts) marks p) : LeasesKept starts marks p := by
  have hinv := h.invariant (fun marks p =>
      (∀ i, (starts i).Proves (starts i).Ended (own i marks) p.shared (p.tasks i)) ∧
      LeasesHeld starts marks p.shared)
    ⟨fun i => LeasedStart.proves_start, by simp [LeasesHeld]⟩ ?_
  · obtain ⟨hproves, hheld⟩ := hinv
    refine ⟨hheld, fun i j mark mark' ctx ctx' hi hj hcall hcall' hinstance => ?_,
      fun i outcome hdone => ?_⟩
    · obtain ⟨-, status, at', hlease⟩ := hheld i mark ctx hi hcall
      obtain ⟨-, status', at'', hlease'⟩ := hheld j mark' ctx' hj hcall'
      rw [LeasedStart.Holds, hinstance] at hlease
      exact hids (congrArg InstanceLease.runId (Option.some.inj (hlease.symm.trans hlease')))
    · have hwp := hproves i
      rw [hdone] at hwp
      exact hwp.post LeasedStart.rely_refl
  · intro marks p i mark p' ⟨hproves, hheld⟩ _ hstep
    cases hstep with
    | intro step =>
      obtain ⟨hkeeps, hnext⟩ := (hproves i).step LeasedStart.rely_refl step trivial
      -- what the step keeps is what the other starts rely on
      have hrely : ∀ j, j ≠ i → (starts j).Rely p.shared _ := fun j hj lease hlease hrun =>
        hkeeps.others _ lease hlease fun heq => hj (hids (hrun.symm.trans heq))
      constructor
      · intro j
        by_cases hj : j = i
        · subst hj
          simpa [own] using hnext
        · rw [own_snoc_of_ne (Ne.symm hj)]
          simpa [Function.update_of_ne hj] using
            (hproves j).rely LeasedStart.rely_trans (hrely j hj)
      · intro j mark' ctx hmem hcall
        have hheld' : ctx = (starts j).ctx ∧ (starts j).Held p.shared := by
          rcases List.mem_append.mp hmem with hmem | hmem
          · exact hheld j mark' ctx hmem hcall
          · obtain ⟨rfl, rfl⟩ := Prod.mk.inj (List.mem_singleton.mp hmem)
            exact hkeeps.starts ctx hcall
        obtain ⟨hctx, hholds⟩ := hheld'
        refine ⟨hctx, ?_⟩
        by_cases hj : j = i
        · subst hj
          exact hkeeps.own hholds
        · obtain ⟨status, at', hholds⟩ := hholds
          exact ⟨status, at', hholds.rely (hrely j hj)⟩

/-- Two starts of one instance. -/
def twoStarts (second : Bool) : LeasedStart :=
  ⟨"agent", "owner", "runtime", "session", if second then "two" else "one", "0", "1", "2"⟩

/-- The second start is refused. -/
theorem leases_kept_two : ∃ marks p,
    LeasesKept (ρ := Unit) twoStarts marks p ∧ ∃ e, p.tasks true = .done (.error e) := by
  have hids : Function.Injective fun i => (twoStarts i).runId := by decide
  have hfirst : Run Free (leasing Unit (fun _ => none) twoStarts) _ _ :=
    Run.snoc .nil trivial (Step.of_task (i := false) .acted)
  exact ⟨_, _, leases_kept hids (hfirst.snoc (i := true) trivial (Step.of_task .acted)), _, rfl⟩

end Veridex.Runtime
