import Veridex.Lib.Trace

/-!
# Computations that ask

A `Dialogue Q R ε α` asks its environment questions in `Q`, is told an answer in `R` or an error, and
ends by returning an `α` or raising an `ε`. Between two questions it computes at once, so a dialogue
is what an environment that interleaves with it can see of a computation.

* The monad sequences dialogues; `call` asks one question, and an error that is answered is raised.
* `Heard d log d'`: after the questions and answers of `log`, `d` goes on as `d'`. `Heard.invariant`
  is its induction.
* `Heard.bind`: what is heard of a sequence.
-/

namespace Veridex.Lib

/-- A computation that asks its environment. -/
inductive Dialogue (Q R ε α : Type) : Type where
  | done (outcome : Except ε α)
  | ask (question : Q) (next : Except ε R → Dialogue Q R ε α)

namespace Dialogue

variable {Q R ε α β : Type}

/-- One dialogue after the other. -/
def bind : Dialogue Q R ε α → (α → Dialogue Q R ε β) → Dialogue Q R ε β
  | .done (.ok a), f => f a
  | .done (.error e), _ => .done (.error e)
  | .ask question next, f => .ask question fun answer => (next answer).bind f

instance : Monad (Dialogue Q R ε) where
  pure a := .done (.ok a)
  bind := bind

/-- Ask one question. -/
def call (question : Q) : Dialogue Q R ε R := .ask question .done

@[simp] theorem pure_eq (a : α) : (pure a : Dialogue Q R ε α) = .done (.ok a) := rfl

@[simp] theorem done_ok_bind (a : α) (f : α → Dialogue Q R ε β) :
    (.done (.ok a) : Dialogue Q R ε α) >>= f = f a := rfl

@[simp] theorem done_error_bind (e : ε) (f : α → Dialogue Q R ε β) :
    (.done (.error e) : Dialogue Q R ε α) >>= f = .done (.error e) := rfl

/-- What a dialogue does with an answer to a single question. -/
def onAnswer (f : R → Dialogue Q R ε β) : Except ε R → Dialogue Q R ε β
  | .ok answer => f answer
  | .error e => .done (.error e)

theorem call_bind (question : Q) (f : R → Dialogue Q R ε β) :
    call question >>= f = .ask question (onAnswer f) := by
  refine congrArg (Dialogue.ask question) (funext fun answer => ?_)
  cases answer <;> rfl

/-- What was asked and answered, and how the dialogue goes on. -/
inductive Heard (d : Dialogue Q R ε α) : List (Q × Except ε R) → Dialogue Q R ε α → Prop
  | nil : Heard d [] d
  | snoc {log : List (Q × Except ε R)} {question : Q} {next : Except ε R → Dialogue Q R ε α}
      (heard : Heard d log (.ask question next)) (answer : Except ε R) :
      Heard d (log ++ [(question, answer)]) (next answer)

/-- **Invariants**: what every answer keeps, of the log and of how the dialogue goes on. -/
theorem Heard.invariant {d d' : Dialogue Q R ε α} {log : List (Q × Except ε R)}
    (Inv : List (Q × Except ε R) → Dialogue Q R ε α → Prop) (h : Heard d log d') (init : Inv [] d)
    (keep : ∀ log question next answer, Inv log (.ask question next) →
      Inv (log ++ [(question, answer)]) (next answer)) : Inv log d' := by
  induction h with
  | nil => exact init
  | snoc _ answer ih => exact keep _ _ _ answer ih

/-- One question heard. -/
theorem heard_call (question : Q) (answer : R) :
    Heard (call question : Dialogue Q R ε R) [(question, .ok answer)] (.done (.ok answer)) :=
  Heard.nil.snoc (.ok answer)

theorem Heard.bind_left {d d' : Dialogue Q R ε α} {log : List (Q × Except ε R)}
    (h : Heard d log d') (f : α → Dialogue Q R ε β) : Heard (d >>= f) log (d' >>= f) := by
  induction h with
  | nil => exact .nil
  | snoc _ answer ih => exact ih.snoc answer

/-- **Sequences**: the second dialogue is heard after the first has returned. -/
theorem Heard.bind {d : Dialogue Q R ε α} {log log' : List (Q × Except ε R)} {a : α}
    {f : α → Dialogue Q R ε β} {d' : Dialogue Q R ε β} (h : Heard d log (.done (.ok a)))
    (h' : Heard (f a) log' d') : Heard (d >>= f) (log ++ log') d' := by
  induction h' with
  | nil =>
    rw [List.append_nil]
    exact h.bind_left f
  | snoc _ answer ih =>
    rw [← List.append_assoc]
    exact ih.snoc answer

end Dialogue

end Veridex.Lib

/-!
## Rules for computations that ask

`Wp Safe Post log d` says of a dialogue that goes on after `log`: every question it asks is `Safe` in
the log it is asked in, and a value it returns satisfies `Post`. A dialogue that raises has nothing
more to satisfy.

* `wp_bind`, `wp_call`, `wp_return`, `wp_foldlM` follow the syntax of a dialogue; `wp_foldlM` takes an
  invariant of the log, the state and the list that is left.
* `Wp.heard`: what the rules prove holds of every log that can be heard.
-/

namespace Veridex.Lib.Dialogue

variable {Q R ε α β σ : Type} {Safe : List (Q × Except ε R) → Q → Prop}
  {log : List (Q × Except ε R)}

/-- Every question is safe, and a value that is returned satisfies `Post`. -/
def Wp (Safe : List (Q × Except ε R) → Q → Prop) (Post : List (Q × Except ε R) → α → Prop) :
    List (Q × Except ε R) → Dialogue Q R ε α → Prop
  | log, .done (.ok a) => Post log a
  | _, .done (.error _) => True
  | log, .ask question next =>
    Safe log question ∧ ∀ answer, Wp Safe Post (log ++ [(question, answer)]) (next answer)

variable {Post Post' : List (Q × Except ε R) → α → Prop}

theorem wp_return {a : α} (h : Post log a) : Wp Safe Post log (pure a : Dialogue Q R ε α) := h

theorem wp_done {outcome : Except ε α} (h : ∀ a, outcome = .ok a → Post log a) :
    Wp Safe Post log (.done outcome : Dialogue Q R ε α) := by
  cases outcome with
  | error e => exact trivial
  | ok a => exact h a rfl

theorem wp_call {Post : List (Q × Except ε R) → R → Prop} {question : Q} (hsafe : Safe log question)
    (hpost : ∀ answer, Post (log ++ [(question, .ok answer)]) answer) :
    Wp Safe Post log (call question) := by
  refine ⟨hsafe, fun answer => ?_⟩
  cases answer with
  | error e => exact trivial
  | ok answer => exact hpost answer

theorem Wp.mono {d : Dialogue Q R ε α} (h : Wp Safe Post log d)
    (himp : ∀ log a, Post log a → Post' log a) : Wp Safe Post' log d := by
  induction d generalizing log with
  | done outcome =>
    cases outcome with
    | error e => exact trivial
    | ok a => exact himp log a h
  | ask question next ih => exact ⟨h.1, fun answer => ih answer (h.2 answer)⟩

/-- Where every question is safe, a value may be anything that satisfies `Post`. -/
theorem wp_any {d : Dialogue Q R ε α} (hsafe : ∀ log question, Safe log question)
    (hpost : ∀ log a, Post log a) : Wp Safe Post log d := by
  induction d generalizing log with
  | done outcome =>
    cases outcome with
    | error e => exact trivial
    | ok a => exact hpost log a
  | ask question next ih => exact ⟨hsafe log question, fun answer => ih answer⟩

/-- **Sequences**: the second dialogue goes on after what the first has asked. -/
theorem wp_bind {Post : List (Q × Except ε R) → β → Prop} {m : Dialogue Q R ε α}
    {f : α → Dialogue Q R ε β} (h : Wp Safe (fun log a => Wp Safe Post log (f a)) log m) :
    Wp Safe Post log (m >>= f) := by
  induction m generalizing log with
  | done outcome =>
    cases outcome with
    | error e => exact trivial
    | ok a => exact h
  | ask question next ih => exact ⟨h.1, fun answer => ih answer (h.2 answer)⟩

/-- **Loops**: an invariant that every round keeps. -/
theorem wp_foldlM {f : σ → α → Dialogue Q R ε σ} {Post : List (Q × Except ε R) → σ → Prop}
    (Inv : List (Q × Except ε R) → σ → List α → Prop)
    (round : ∀ log s x rest, Inv log s (x :: rest) →
      Wp Safe (fun log s => Inv log s rest) log (f s x))
    (finish : ∀ log s, Inv log s [] → Post log s) {xs : List α} {s : σ} (h : Inv log s xs) :
    Wp Safe Post log (xs.foldlM f s) := by
  induction xs generalizing log s with
  | nil => exact finish log s h
  | cons x xs ih =>
    rw [List.foldlM_cons]
    exact wp_bind ((round log s x xs h).mono fun log s hinv => ih hinv)

/-- **What is heard**: every question of the log was safe, and the rest of the dialogue meets the
rules. -/
theorem Wp.heard_after {d d' : Dialogue Q R ε α} {log' : List (Q × Except ε R)}
    (hlog : EachAfter (fun pre entry => Safe pre entry.1) log) (h : Wp Safe Post log d)
    (hheard : Heard d log' d') : EachAfter (fun pre entry => Safe pre entry.1) (log ++ log') ∧
      Wp Safe Post (log ++ log') d' := by
  refine hheard.invariant
    (fun log' d' => EachAfter (fun pre entry => Safe pre entry.1) (log ++ log') ∧
      Wp Safe Post (log ++ log') d') ?_ ?_
  · rw [List.append_nil]
    exact ⟨hlog, h⟩
  · rintro log' question next answer ⟨hlog, hsafe, hnext⟩
    rw [← List.append_assoc]
    refine ⟨eachAfter_append.mpr ⟨hlog, eachAfter_singleton.mpr ?_⟩, hnext answer⟩
    rwa [List.append_nil]

/-- What is heard of a dialogue from its start. -/
theorem Wp.heard {d d' : Dialogue Q R ε α} (h : Wp Safe Post [] d) (hheard : Heard d log d') :
    EachAfter (fun pre entry => Safe pre entry.1) log ∧ Wp Safe Post log d' :=
  heard_after eachAfter_nil h hheard

/-- What a dialogue returns. -/
theorem Wp.returned {d : Dialogue Q R ε α} {a : α} (h : Wp Safe Post [] d)
    (hheard : Heard d log (.done (.ok a))) : Post log a := (h.heard hheard).2

-- a dialogue that branches on a large decision is not to be evaluated: proofs use the rules
attribute [irreducible] Wp

end Veridex.Lib.Dialogue
