import Veridex.Lib.Task

/-!
# What a task may call

`Within A K t` says of a task that each call that acts satisfies `A`, with what it does to the state,
and each call that asks satisfies `K`, whatever was answered before.

* `within_andThen`, `within_bind`, `within_foldlM`, `within_interpret` follow the syntax of a task.
* `Within.step`: one step of the task, and what is left of it.
-/

namespace Veridex.Lib.Task

variable {σ Q R ε α β τ : Type} {A : Q → (σ → σ) → Prop} {K : Q → Prop}

/-- Every call is allowed. -/
def Within (A : Q → (σ → σ) → Prop) (K : Q → Prop) : Task σ Q R ε α → Prop
  | .done _ => True
  | .act call update next => A call update ∧ ∀ read, Within A K (next read)
  | .ask call next => K call ∧ ∀ answer, Within A K (next answer)

/-- **One step**: what it does is allowed, and so is what is left. -/
theorem Within.step {t t' : Task σ Q R ε α} {s s' : σ} {mark : Mark Q R ε} (h : Within A K t)
    (hstep : Step s t mark s' t') : Within A K t' ∧
      ((∃ update, A mark.call update ∧ (s' = update s ∧ mark = .acted mark.call ∨ s' = s)) ∨
        K mark.call ∧ s' = s) := by
  cases hstep with
  | acted => exact ⟨h.2 _, .inl ⟨_, h.1, .inl ⟨rfl, rfl⟩⟩⟩
  | refused e => exact ⟨h.2 _, .inl ⟨_, h.1, .inr rfl⟩⟩
  | answered answer => exact ⟨h.2 _, .inr ⟨h.1, rfl⟩⟩
  | failed e => exact ⟨h.2 _, .inr ⟨h.1, rfl⟩⟩

attribute [irreducible] Within

end Veridex.Lib.Task

/-!
## One task in a run

`Path t marks t'` says that a task takes steps, each on a state of its own: what a run with others is,
seen from it.

* `Run.split`: a run is its beginning, and a run that goes on from there.
* `Run.path`: the marks of a task in a run are a path of it.
* `Run.crossing`: what a run has brought about was brought about by one of its steps.
* `Run.within`, `Run.keeps`: where the calls of each task are limited.
-/

namespace Veridex.Lib

namespace Task

variable {σ Q R ε α : Type} {A : Q → (σ → σ) → Prop} {K : Q → Prop}

/-- Steps of one task, each on some state. -/
inductive Path (t : Task σ Q R ε α) : List (Mark Q R ε) → Task σ Q R ε α → Prop
  | nil : Path t [] t
  | snoc {t' t'' : Task σ Q R ε α} {marks : List (Mark Q R ε)} {mark : Mark Q R ε} {s s' : σ}
      (path : Path t marks t') (step : Step s t' mark s' t'') : Path t (marks ++ [mark]) t''

/-- **A path** of a limited task: each call is allowed, and so is what is left. -/
theorem Within.path {t t' : Task σ Q R ε α} {marks : List (Mark Q R ε)} (h : Within A K t)
    (hpath : Path t marks t') : Within A K t' ∧
      ∀ mark ∈ marks, (∃ update, A mark.call update) ∨ K mark.call := by
  induction hpath with
  | nil => exact ⟨h, fun _ hmem => absurd hmem List.not_mem_nil⟩
  | snoc _ step ih =>
    obtain ⟨hwithin, hmarks⟩ := ih
    obtain ⟨hnext, hcall⟩ := hwithin.step step
    refine ⟨hnext, fun mark hmem => ?_⟩
    rcases List.mem_append.mp hmem with hmem | hmem
    · exact hmarks mark hmem
    · rw [List.mem_singleton.mp hmem]
      rcases hcall with ⟨update, hallowed, -⟩ | ⟨hallowed, -⟩
      · exact .inl ⟨update, hallowed⟩
      · exact .inr hallowed

/-- A step is determined by its mark. -/
theorem Step.unique {s s₁ s₂ : σ} {t t₁ t₂ : Task σ Q R ε α} {mark : Mark Q R ε}
    (h₁ : Step s t mark s₁ t₁) (h₂ : Step s t mark s₂ t₂) : s₁ = s₂ ∧ t₁ = t₂ := by
  cases h₁ <;> cases h₂ <;> exact ⟨rfl, rfl⟩

end Task

namespace Pool

variable {σ ι Q R ε α : Type} [DecidableEq ι]
  {Allowed Allowed' : List (ι × Mark Q R ε) → Pool σ ι Q R ε α → ι → Mark Q R ε → Prop}
  {start p p' : Pool σ ι Q R ε α} {marks before after : List (ι × Mark Q R ε)}
  {A : Q → (σ → σ) → Prop} {K : Q → Prop}

/-- Every step is allowed. -/
def Free (_ : List (ι × Mark Q R ε)) (_ : Pool σ ι Q R ε α) (_ : ι) (_ : Mark Q R ε) : Prop := True

theorem Run.free (h : Run Allowed start marks p) : Run Free start marks p := by
  induction h with
  | nil => exact .nil
  | snoc _ _ step ih => exact ih.snoc trivial step

/-- What was done before the last step. -/
theorem Run.of_snoc {entry : ι × Mark Q R ε} (h : Run Allowed start (marks ++ [entry]) p') :
    ∃ p, Run Allowed start marks p ∧ Allowed marks p entry.1 entry.2 ∧ p.Step entry.1 entry.2 p' := by
  generalize hmarks : marks ++ [entry] = marks' at h
  cases h with
  | nil => exact absurd hmarks (by simp)
  | snoc run allowed step =>
    obtain ⟨rfl, rfl⟩ := List.append_inj' hmarks rfl |>.imp id List.singleton_inj.mp
    exact ⟨_, run, allowed, step⟩

/-- **A run** is its beginning, and what follows. -/
theorem Run.split (h : Run Allowed start (before ++ after) p) :
    ∃ p', Run Allowed start before p' ∧ Run Free p' after p := by
  induction after using List.reverseRecOn generalizing p with
  | nil =>
    rw [List.append_nil] at h
    exact ⟨p, h, .nil⟩
  | append_singleton after entry ih =>
    rw [← List.append_assoc] at h
    obtain ⟨p₁, hrun, -, hstep⟩ := h.of_snoc
    obtain ⟨p', hbefore, hafter⟩ := ih hrun
    exact ⟨p', hbefore, hafter.snoc trivial hstep⟩

/-- **A task's marks** are a path of it. -/
theorem Run.path (h : Run Allowed start marks p) (i : ι) :
    Task.Path (start.tasks i) (own i marks) (p.tasks i) := by
  induction h with
  | nil => exact .nil
  | @snoc marks p p' j mark _ _ step ih =>
    obtain ⟨step⟩ := step
    by_cases hj : j = i
    · subst hj
      rw [own_snoc_self]
      dsimp only
      rw [Function.update_self]
      exact ih.snoc step
    · rw [own_snoc_of_ne hj]
      dsimp only
      rw [Function.update_of_ne (Ne.symm hj)]
      exact ih

theorem Step.unique {p₁ p₂ : Pool σ ι Q R ε α} {i : ι} {mark : Mark Q R ε} (h₁ : p.Step i mark p₁)
    (h₂ : p.Step i mark p₂) : p₁ = p₂ := by
  obtain ⟨step₁⟩ := h₁
  obtain ⟨step₂⟩ := h₂
  obtain ⟨rfl, rfl⟩ := step₁.unique step₂
  rfl

/-- A run is determined by its marks. -/
theorem Run.unique (h : Run Allowed start marks p) (h' : Run Allowed' start marks p') : p = p' := by
  induction h generalizing p' with
  | nil =>
    generalize hmarks : ([] : List (ι × Mark Q R ε)) = marks at h'
    cases h' with
    | nil => rfl
    | snoc run allowed step => exact absurd hmarks.symm (by simp)
  | snoc _ _ step ih =>
    obtain ⟨p₁, hrun, -, hstep⟩ := h'.of_snoc
    obtain rfl := ih hrun
    exact step.unique hstep

/-- **The step** that has brought something about. -/
theorem Run.crossing {P : Pool σ ι Q R ε α → Prop} (h : Run Allowed start marks p) (hstart : ¬ P start)
    (hp : P p) : ∃ before i mark after p₁ p₂, marks = before ++ (i, mark) :: after ∧
      Run Allowed start before p₁ ∧ Allowed before p₁ i mark ∧ p₁.Step i mark p₂ ∧
      Run Free p₂ after p ∧ ¬ P p₁ ∧ P p₂ := by
  induction h with
  | nil => exact absurd hp hstart
  | @snoc marks p₁ p₂ i mark run allowed step ih =>
    by_cases hbefore : P p₁
    · obtain ⟨before, j, mark', after, q₁, q₂, rfl, hrun, hallowed, hstep, hafter, hq₁, hq₂⟩ :=
        ih hbefore
      exact ⟨before, j, mark', after ++ [(i, mark)], q₁, q₂, by simp, hrun, hallowed, hstep,
        hafter.snoc trivial step, hq₁, hq₂⟩
    · exact ⟨marks, i, mark, [], p₁, p₂, rfl, run, allowed, step, .nil, hbefore, hp⟩

/-- Tasks that are limited stay so. -/
theorem Run.within (h : Run Allowed start marks p) {i : ι} (hwithin : Task.Within A K (start.tasks i)) :
    Task.Within A K (p.tasks i) := (hwithin.path (h.path i)).1

/-- One step of limited tasks. -/
theorem Step.keeps {P : σ → Prop} {i : ι} {mark : Mark Q R ε} (h : p.Step i mark p')
    (hwithin : Task.Within A K (p.tasks i)) (hkeep : ∀ call update, A call update → ∀ s, P s → P (update s))
    (hp : P p.shared) : P p'.shared := by
  obtain ⟨step⟩ := h
  rcases (hwithin.step step).2 with ⟨update, hallowed, ⟨rfl, -⟩ | rfl⟩ | ⟨-, rfl⟩
  · exact hkeep _ _ hallowed _ hp
  · exact hp
  · exact hp

/-- **What every call keeps** of the state, a run keeps. -/
theorem Run.keeps {P : σ → Prop} (h : Run Allowed start marks p)
    (hwithin : ∀ i, Task.Within A K (start.tasks i))
    (hkeep : ∀ call update, A call update → ∀ s, P s → P (update s)) (hp : P start.shared) :
    P p.shared := by
  induction h with
  | nil => exact hp
  | snoc run _ step ih => exact step.keeps (run.within (hwithin _)) hkeep ih

end Pool

end Veridex.Lib
