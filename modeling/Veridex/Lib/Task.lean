import Veridex.Lib.Dialogue

/-!
# Tasks over a shared state

A `Task σ Q R ε α` computes at once between its calls. A call either acts on a state that other tasks
share, in one step, or asks the environment, and both may raise. Calls are named in `Q`.

* `andThen` goes on with the outcome of a task; `bind` and `catching` are its two uses. A `Dialogue`
  whose questions are tasks is a task (`interpret`).
* `relabel` takes a task to other names of its calls.
* `Task.Step`: one call, with its mark; `Task.Reaches`: some of them, of one task alone. `Pool.Step`
  lets one of many tasks take it, and `Pool.Run` is a run of such steps, each of which an `Allowed` may
  restrict. `Pool.Run.invariant` is its induction.
* `own i marks`: the marks of one task.
-/

namespace Veridex.Lib

/-- A computation over a shared state. -/
inductive Task (σ Q R ε α : Type) : Type where
  | done (outcome : Except ε α)
  | act (call : Q) (update : σ → σ) (next : Except ε σ → Task σ Q R ε α)
  | ask (call : Q) (next : Except ε R → Task σ Q R ε α)

/-- What a step of a task was: a call that acted, that was answered, or that raised. -/
inductive Mark (Q R ε : Type) : Type where
  | acted (call : Q)
  | answered (call : Q) (answer : R)
  | failed (call : Q) (error : ε)

/-- The call of a mark. -/
def Mark.call {Q R ε : Type} : Mark Q R ε → Q
  | .acted call | .answered call _ | .failed call _ => call

namespace Task

variable {σ Q R ε α β γ : Type}

/-- A task, and what follows its outcome. -/
def andThen : Task σ Q R ε α → (Except ε α → Task σ Q R ε β) → Task σ Q R ε β
  | .done outcome, f => f outcome
  | .act call update next, f => .act call update fun read => (next read).andThen f
  | .ask call next, f => .ask call fun answer => (next answer).andThen f

/-- What follows a value; an error is raised on. -/
def onValue (f : α → Task σ Q R ε β) : Except ε α → Task σ Q R ε β
  | .ok a => f a
  | .error e => .done (.error e)

/-- What follows an error. -/
def onError (f : ε → Task σ Q R ε α) : Except ε α → Task σ Q R ε α
  | .ok a => .done (.ok a)
  | .error e => f e

instance : Monad (Task σ Q R ε) where
  pure a := .done (.ok a)
  bind t f := t.andThen (onValue f)

/-- `try: t except e: handler(e)`. -/
def catching (t : Task σ Q R ε α) (handler : ε → Task σ Q R ε α) : Task σ Q R ε α :=
  t.andThen (onError handler)

/-- An error that is raised. -/
def raise (e : ε) : Task σ Q R ε α := .done (.error e)

/-- One call that acts on the state as `method` does. -/
def perform (call : Q) (method : σ → Except ε α × σ) : Task σ Q R ε α :=
  .act call (fun s => (method s).2) fun
    | .ok s => .done (method s).1
    | .error e => .done (.error e)

/-- One call to the environment. -/
def request (call : Q) : Task σ Q R ε R := .ask call .done

@[simp] theorem pure_eq (a : α) : (pure a : Task σ Q R ε α) = .done (.ok a) := rfl

@[simp] theorem done_ok_bind (a : α) (f : α → Task σ Q R ε β) :
    (.done (.ok a) : Task σ Q R ε α) >>= f = f a := rfl

@[simp] theorem done_error_bind (e : ε) (f : α → Task σ Q R ε β) :
    (.done (.error e) : Task σ Q R ε α) >>= f = .done (.error e) := rfl

theorem andThen_assoc (t : Task σ Q R ε α) (f : Except ε α → Task σ Q R ε β)
    (g : Except ε β → Task σ Q R ε γ) :
    (t.andThen f).andThen g = t.andThen fun outcome => (f outcome).andThen g := by
  induction t with
  | done outcome => rfl
  | act call update next ih => exact congrArg (Task.act call update) (funext ih)
  | ask call next ih => exact congrArg (Task.ask call) (funext ih)

theorem bind_assoc (t : Task σ Q R ε α) (f : α → Task σ Q R ε β) (g : β → Task σ Q R ε γ) :
    t >>= f >>= g = t >>= fun a => f a >>= g := by
  refine (andThen_assoc _ _ _).trans (congrArg t.andThen (funext fun outcome => ?_))
  cases outcome <;> rfl

theorem bind_pure (t : Task σ Q R ε α) : t >>= pure = t := by
  induction t with
  | done outcome => cases outcome <;> rfl
  | act call update next ih => exact congrArg (Task.act call update) (funext ih)
  | ask call next ih => exact congrArg (Task.ask call) (funext ih)

/-- A dialogue without handlers whose questions are tasks: an error of a question is raised on. -/
def interpret {Q' R' ε' : Type} (lift : ε' → ε) (handle : Q' → Task σ Q R ε R') :
    Dialogue Q' R' ε' α → Task σ Q R ε α
  | .done (.ok a) => .done (.ok a)
  | .done (.error e) => .done (.error (lift e))
  | .ask question next => handle question >>= fun answer => interpret lift handle (next (.ok answer))

section Interpret

variable {Q' R' ε' : Type} (lift : ε' → ε) (handle : Q' → Task σ Q R ε R')

@[simp] theorem interpret_ok (a : α) :
    interpret lift handle (.done (.ok a)) = (pure a : Task σ Q R ε α) := rfl

@[simp] theorem interpret_error (e : ε') :
    interpret lift handle (.done (.error e)) = (raise (lift e) : Task σ Q R ε α) := rfl

theorem interpret_bind (d : Dialogue Q' R' ε' α) (f : α → Dialogue Q' R' ε' β) :
    interpret lift handle (d >>= f) = interpret lift handle d >>= fun a =>
      interpret lift handle (f a) := by
  induction d with
  | done outcome => cases outcome <;> rfl
  | ask question next ih =>
    have hnext : (fun answer => interpret lift handle (next (.ok answer) >>= f)) = fun answer =>
        interpret lift handle (next (.ok answer)) >>= fun a => interpret lift handle (f a) :=
      funext fun answer => ih (.ok answer)
    exact (congrArg (fun next => handle question >>= next) hnext).trans (bind_assoc _ _ _).symm

theorem interpret_call (question : Q') :
    interpret lift handle (Dialogue.call question) = handle question := bind_pure _

end Interpret

/-- A task whose calls are other calls, which are told what they read of their answers. -/
def relabel {Q' R' : Type} (f : Q → Q') (g : R' → R) : Task σ Q R ε α → Task σ Q' R' ε α
  | .done outcome => .done outcome
  | .act call update next => .act (f call) update fun read => (next read).relabel f g
  | .ask call next => .ask (f call) fun answer => (next (answer.map g)).relabel f g

/-! ## Steps -/

/-- One call of a task. -/
inductive Step : σ → Task σ Q R ε α → Mark Q R ε → σ → Task σ Q R ε α → Prop
  | acted {s : σ} {call : Q} {update : σ → σ} {next : Except ε σ → Task σ Q R ε α} :
      Step s (.act call update next) (.acted call) (update s) (next (.ok s))
  | refused {s : σ} {call : Q} {update : σ → σ} {next : Except ε σ → Task σ Q R ε α} (e : ε) :
      Step s (.act call update next) (.failed call e) s (next (.error e))
  | answered {s : σ} {call : Q} {next : Except ε R → Task σ Q R ε α} (answer : R) :
      Step s (.ask call next) (.answered call answer) s (next (.ok answer))
  | failed {s : σ} {call : Q} {next : Except ε R → Task σ Q R ε α} (e : ε) :
      Step s (.ask call next) (.failed call e) s (next (.error e))

theorem Step.of_act {s s' : σ} {call : Q} {update : σ → σ} {next : Except ε σ → Task σ Q R ε α}
    {mark : Mark Q R ε} {t : Task σ Q R ε α} (h : Step s (.act call update next) mark s' t) :
    mark = .acted call ∧ s' = update s ∧ t = next (.ok s) ∨
      ∃ e, mark = .failed call e ∧ s' = s ∧ t = next (.error e) := by
  cases h with
  | acted => exact .inl ⟨rfl, rfl, rfl⟩
  | refused e => exact .inr ⟨e, rfl, rfl, rfl⟩

theorem Step.not_done {s s' : σ} {outcome : Except ε α} {mark : Mark Q R ε} {t : Task σ Q R ε α} :
    ¬ Step s (.done outcome) mark s' t := nofun

/-- Steps of one task alone. -/
inductive Steps : σ → Task σ Q R ε α → List (Mark Q R ε) → σ → Task σ Q R ε α → Prop
  | nil {s : σ} {t : Task σ Q R ε α} : Steps s t [] s t
  | cons {s s' s'' : σ} {t t' t'' : Task σ Q R ε α} {mark : Mark Q R ε} {marks : List (Mark Q R ε)}
      (step : Step s t mark s' t') (steps : Steps s' t' marks s'' t'') :
      Steps s t (mark :: marks) s'' t''

theorem Steps.trans {s s' s'' : σ} {t t' t'' : Task σ Q R ε α} {marks marks' : List (Mark Q R ε)}
    (h : Steps s t marks s' t') (h' : Steps s' t' marks' s'' t'') :
    Steps s t (marks ++ marks') s'' t'' := by
  induction h with
  | nil => exact h'
  | cons step _ ih => exact .cons step (ih h')

theorem Step.andThen {s s' : σ} {t t' : Task σ Q R ε α} {mark : Mark Q R ε}
    (h : Step s t mark s' t') (f : Except ε α → Task σ Q R ε β) :
    Step s (t.andThen f) mark s' (t'.andThen f) := by
  cases h with
  | acted => exact .acted
  | refused e => exact .refused e
  | answered answer => exact .answered answer
  | failed e => exact .failed e

/-- The steps of a task are steps of what it is the beginning of. -/
theorem Steps.andThen {s s' : σ} {t t' : Task σ Q R ε α} {marks : List (Mark Q R ε)}
    (h : Steps s t marks s' t') (f : Except ε α → Task σ Q R ε β) :
    Steps s (t.andThen f) marks s' (t'.andThen f) := by
  induction h with
  | nil => exact .nil
  | cons step _ ih => exact .cons (step.andThen f) ih

/-- **Sequences**: the second task goes on where the first has returned. -/
theorem Steps.bind {s s' s'' : σ} {t : Task σ Q R ε α} {t' : Task σ Q R ε β} {a : α}
    {f : α → Task σ Q R ε β} {marks marks' : List (Mark Q R ε)}
    (h : Steps s t marks s' (.done (.ok a))) (h' : Steps s' (f a) marks' s'' t') :
    Steps s (t >>= f) (marks ++ marks') s'' t' := (h.andThen (onValue f)).trans h'

/-- A call that returns. -/
theorem steps_perform {call : Q} {method : σ → Except ε α × σ} (s : σ) :
    Steps s (perform call method : Task σ Q R ε α) [.acted call] (method s).2
      (.done (method s).1) :=
  .cons .acted .nil

theorem steps_request {call : Q} (s : σ) (answer : R) :
    Steps s (request call : Task σ Q R ε R) [.answered call answer] s (.done (.ok answer)) :=
  .cons (.answered answer) .nil

/-- A task comes to another, alone. -/
def Reaches (s : σ) (t : Task σ Q R ε α) (s' : σ) (t' : Task σ Q R ε α) : Prop :=
  ∃ marks, Steps s t marks s' t'

theorem Reaches.refl {s : σ} {t : Task σ Q R ε α} : Reaches s t s t := ⟨[], .nil⟩

theorem Reaches.trans {s s' s'' : σ} {t t' t'' : Task σ Q R ε α} (h : Reaches s t s' t')
    (h' : Reaches s' t' s'' t'') : Reaches s t s'' t'' :=
  ⟨_, h.choose_spec.trans h'.choose_spec⟩

theorem Reaches.bind {s s' s'' : σ} {t : Task σ Q R ε α} {t' : Task σ Q R ε β} {a : α}
    {f : α → Task σ Q R ε β} (h : Reaches s t s' (.done (.ok a))) (h' : Reaches s' (f a) s'' t') :
    Reaches s (t >>= f) s'' t' :=
  ⟨_, h.choose_spec.bind h'.choose_spec⟩

theorem Reaches.andThen {s s' : σ} {t t' : Task σ Q R ε α} (h : Reaches s t s' t')
    (f : Except ε α → Task σ Q R ε β) : Reaches s (t.andThen f) s' (t'.andThen f) :=
  ⟨_, h.choose_spec.andThen f⟩

theorem reaches_perform {call : Q} {method : σ → Except ε α × σ} {s : σ} {outcome : Except ε α}
    (h : (method s).1 = outcome) :
    Reaches s (perform call method : Task σ Q R ε α) (method s).2 (.done outcome) :=
  ⟨_, h ▸ steps_perform s⟩

theorem reaches_request {call : Q} (s : σ) (answer : R) :
    Reaches s (request call : Task σ Q R ε R) s (.done (.ok answer)) :=
  ⟨_, steps_request s answer⟩

end Task

/-! ## Pools -/

/-- Many tasks, and the state they share. -/
structure Pool (σ ι Q R ε α : Type) where
  shared : σ
  tasks : ι → Task σ Q R ε α

namespace Pool

variable {σ ι Q R ε α : Type} [DecidableEq ι]

/-- One task takes one step. -/
inductive Step (p : Pool σ ι Q R ε α) (i : ι) (mark : Mark Q R ε) : Pool σ ι Q R ε α → Prop
  | intro {s : σ} {t : Task σ Q R ε α} (step : Task.Step p.shared (p.tasks i) mark s t) :
      Step p i mark ⟨s, Function.update p.tasks i t⟩

/-- A run: its marks, each with the task it is of, and the pool it leads to. -/
inductive Run (Allowed : List (ι × Mark Q R ε) → Pool σ ι Q R ε α → ι → Mark Q R ε → Prop)
    (start : Pool σ ι Q R ε α) : List (ι × Mark Q R ε) → Pool σ ι Q R ε α → Prop
  | nil : Run Allowed start [] start
  | snoc {marks : List (ι × Mark Q R ε)} {p p' : Pool σ ι Q R ε α} {i : ι} {mark : Mark Q R ε}
      (run : Run Allowed start marks p) (allowed : Allowed marks p i mark) (step : p.Step i mark p') :
      Run Allowed start (marks ++ [(i, mark)]) p'

variable {Allowed : List (ι × Mark Q R ε) → Pool σ ι Q R ε α → ι → Mark Q R ε → Prop}
  {start p p' : Pool σ ι Q R ε α} {marks : List (ι × Mark Q R ε)}

/-- **Invariants** of a run: what every allowed step keeps. -/
theorem Run.invariant (Inv : List (ι × Mark Q R ε) → Pool σ ι Q R ε α → Prop)
    (h : Run Allowed start marks p) (init : Inv [] start)
    (keep : ∀ marks p i mark p', Inv marks p → Allowed marks p i mark → p.Step i mark p' →
      Inv (marks ++ [(i, mark)]) p') : Inv marks p := by
  induction h with
  | nil => exact init
  | snoc _ allowed step ih => exact keep _ _ _ _ _ ih allowed step

/-- A step of one task alone is a step of the pool. -/
theorem Step.of_task {i : ι} {mark : Mark Q R ε} {s : σ} {t : Task σ Q R ε α}
    (h : Task.Step p.shared (p.tasks i) mark s t) :
    p.Step i mark ⟨s, Function.update p.tasks i t⟩ := ⟨h⟩

/-- **One task alone**: its steps are a run, where all are allowed. -/
theorem Run.append {i : ι} {s : σ} {t : Task σ Q R ε α} {steps : List (Mark Q R ε)}
    (hallowed : ∀ marks p, ∀ mark ∈ steps, Allowed marks p i mark)
    (hsteps : Task.Steps p.shared (p.tasks i) steps s t) (h : Run Allowed start marks p) :
    Run Allowed start (marks ++ steps.map fun mark => (i, mark)) ⟨s, Function.update p.tasks i t⟩ := by
  obtain ⟨shared, tasks⟩ := p
  dsimp only at hsteps ⊢
  generalize ht : tasks i = t₀ at hsteps
  induction hsteps generalizing tasks marks with
  | nil =>
    rw [List.map_nil, List.append_nil, ← ht, Function.update_eq_self]
    exact h
  | @cons s s' s'' t₁ t' t'' mark steps step _ ih =>
    subst ht
    have hnext := ih (fun marks p mark hmark => hallowed marks p mark (List.mem_cons_of_mem _ hmark)) _
      (h.snoc (hallowed _ _ _ List.mem_cons_self) (Step.of_task step)) (Function.update_self ..)
    rw [Function.update_idem] at hnext
    simpa using hnext

/-- The marks of one task. -/
def own (i : ι) (marks : List (ι × Mark Q R ε)) : List (Mark Q R ε) :=
  marks.filterMap fun entry => if entry.1 = i then some entry.2 else none

@[simp] theorem own_snoc_self (i : ι) (marks : List (ι × Mark Q R ε)) (mark : Mark Q R ε) :
    own i (marks ++ [(i, mark)]) = own i marks ++ [mark] := by
  simp [own, List.filterMap_append]

theorem own_snoc_of_ne {i j : ι} (h : j ≠ i) (marks : List (ι × Mark Q R ε)) (mark : Mark Q R ε) :
    own i (marks ++ [(j, mark)]) = own i marks := by
  simp [own, List.filterMap_append, h]

end Pool

end Veridex.Lib
