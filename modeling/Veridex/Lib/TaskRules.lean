import Veridex.Lib.Task

/-!
# Rules for tasks among tasks

`Wp Rely Fair Keep Post marks s t` says of a task that goes on after its own `marks`, in a state `s`
that the other tasks may move by `Rely` before each of its steps: every `Fair` step of it keeps to
`Keep`, and its outcome satisfies `Post`.

* `wp_done`, `wp_andThen`, `wp_bind`, `wp_perform`, `wp_request` follow the syntax of a task.
* `Wp.step` takes one step, `Wp.rely` one of the others'.
* With `Eq` for `Rely` a task runs alone; with a relation that always holds it is told nothing.
-/

namespace Veridex.Lib.Task

variable {σ Q R ε α β : Type} {Rely : σ → σ → Prop}
  {Fair : List (Mark Q R ε) → Mark Q R ε → Prop}
  {Keep : List (Mark Q R ε) → Mark Q R ε → σ → σ → Prop}

/-- Every step keeps to `Keep`, and the outcome satisfies `Post`. -/
def Wp (Rely : σ → σ → Prop) (Fair : List (Mark Q R ε) → Mark Q R ε → Prop)
    (Keep : List (Mark Q R ε) → Mark Q R ε → σ → σ → Prop)
    (Post : List (Mark Q R ε) → σ → Except ε α → Prop) :
    List (Mark Q R ε) → σ → Task σ Q R ε α → Prop
  | marks, s, .done outcome => ∀ s', Rely s s' → Post marks s' outcome
  | marks, s, .act call update next => ∀ s', Rely s s' →
      (Fair marks (.acted call) → Keep marks (.acted call) s' (update s') ∧
        Wp Rely Fair Keep Post (marks ++ [.acted call]) (update s') (next (.ok s'))) ∧
      ∀ e, Fair marks (.failed call e) → Keep marks (.failed call e) s' s' ∧
        Wp Rely Fair Keep Post (marks ++ [.failed call e]) s' (next (.error e))
  | marks, s, .ask call next => ∀ s', Rely s s' →
      (∀ answer, Fair marks (.answered call answer) → Keep marks (.answered call answer) s' s' ∧
        Wp Rely Fair Keep Post (marks ++ [.answered call answer]) s' (next (.ok answer))) ∧
      ∀ e, Fair marks (.failed call e) → Keep marks (.failed call e) s' s' ∧
        Wp Rely Fair Keep Post (marks ++ [.failed call e]) s' (next (.error e))

variable {Post Post' : List (Mark Q R ε) → σ → Except ε α → Prop} {marks : List (Mark Q R ε)}
  {s s' : σ} {t t' : Task σ Q R ε α} {mark : Mark Q R ε}

/-- The others move the state. -/
theorem Wp.rely (htrans : ∀ a b c, Rely a b → Rely b c → Rely a c)
    (h : Wp Rely Fair Keep Post marks s t) (hrely : Rely s s') :
    Wp Rely Fair Keep Post marks s' t := by
  cases t with
  | done outcome => exact fun s'' h' => h s'' (htrans _ _ _ hrely h')
  | act call update next => exact fun s'' h' => h s'' (htrans _ _ _ hrely h')
  | ask call next => exact fun s'' h' => h s'' (htrans _ _ _ hrely h')

/-- **One step** of the task. -/
theorem Wp.step (hrefl : ∀ s, Rely s s) (h : Wp Rely Fair Keep Post marks s t)
    (hstep : Step s t mark s' t') (hfair : Fair marks mark) :
    Keep marks mark s s' ∧ Wp Rely Fair Keep Post (marks ++ [mark]) s' t' := by
  cases hstep with
  | acted => exact (h s (hrefl s)).1 hfair
  | refused e => exact (h s (hrefl s)).2 e hfair
  | answered answer => exact (h s (hrefl s)).1 answer hfair
  | failed e => exact (h s (hrefl s)).2 e hfair

/-- The outcome of a task that has ended. -/
theorem Wp.post (hrefl : ∀ s, Rely s s) {outcome : Except ε α}
    (h : Wp Rely Fair Keep Post marks s (.done outcome)) : Post marks s outcome := h s (hrefl s)

theorem wp_done {outcome : Except ε α} (h : ∀ s', Rely s s' → Post marks s' outcome) :
    Wp Rely Fair Keep Post marks s (.done outcome) := h

theorem Wp.mono (h : Wp Rely Fair Keep Post marks s t)
    (himp : ∀ marks s outcome, Post marks s outcome → Post' marks s outcome) :
    Wp Rely Fair Keep Post' marks s t := by
  induction t generalizing marks s with
  | done outcome => exact fun s' hrely => himp _ _ _ (h s' hrely)
  | act call update next ih =>
    intro s' hrely
    refine ⟨fun hfair => ?_, fun e hfair => ?_⟩
    · exact ⟨((h s' hrely).1 hfair).1, ih _ ((h s' hrely).1 hfair).2⟩
    · exact ⟨((h s' hrely).2 e hfair).1, ih _ ((h s' hrely).2 e hfair).2⟩
  | ask call next ih =>
    intro s' hrely
    refine ⟨fun answer hfair => ?_, fun e hfair => ?_⟩
    · exact ⟨((h s' hrely).1 answer hfair).1, ih _ ((h s' hrely).1 answer hfair).2⟩
    · exact ⟨((h s' hrely).2 e hfair).1, ih _ ((h s' hrely).2 e hfair).2⟩

/-- **Sequences**: what follows goes on with the outcome. -/
theorem wp_andThen (hrefl : ∀ s, Rely s s) {Post : List (Mark Q R ε) → σ → Except ε β → Prop}
    {f : Except ε α → Task σ Q R ε β}
    (h : Wp Rely Fair Keep (fun marks s outcome => Wp Rely Fair Keep Post marks s (f outcome))
      marks s t) : Wp Rely Fair Keep Post marks s (t.andThen f) := by
  induction t generalizing marks s with
  | done outcome => exact h s (hrefl s)
  | act call update next ih =>
    intro s' hrely
    refine ⟨fun hfair => ?_, fun e hfair => ?_⟩
    · exact ⟨((h s' hrely).1 hfair).1, ih _ ((h s' hrely).1 hfair).2⟩
    · exact ⟨((h s' hrely).2 e hfair).1, ih _ ((h s' hrely).2 e hfair).2⟩
  | ask call next ih =>
    intro s' hrely
    refine ⟨fun answer hfair => ?_, fun e hfair => ?_⟩
    · exact ⟨((h s' hrely).1 answer hfair).1, ih _ ((h s' hrely).1 answer hfair).2⟩
    · exact ⟨((h s' hrely).2 e hfair).1, ih _ ((h s' hrely).2 e hfair).2⟩

/-- A sequence, whose second task is not reached by an error. -/
theorem wp_bind (hrefl : ∀ s, Rely s s) {Post : List (Mark Q R ε) → σ → Except ε β → Prop}
    {f : α → Task σ Q R ε β}
    (h : Wp Rely Fair Keep (fun marks s outcome => match outcome with
      | .ok a => Wp Rely Fair Keep Post marks s (f a)
      | .error e => ∀ s', Rely s s' → Post marks s' (.error e)) marks s t) :
    Wp Rely Fair Keep Post marks s (t >>= f) := by
  refine wp_andThen hrefl (h.mono fun marks s outcome hpost => ?_)
  cases outcome with
  | ok a => exact hpost
  | error e => exact hpost

/-- One call that acts on the state. -/
theorem wp_perform {call : Q} {method : σ → Except ε α × σ}
    (hacted : ∀ s', Rely s s' → Fair marks (.acted call) →
      Keep marks (.acted call) s' (method s').2 ∧
        ∀ s'', Rely (method s').2 s'' → Post (marks ++ [.acted call]) s'' (method s').1)
    (hfailed : ∀ s' e, Rely s s' → Fair marks (.failed call e) → Keep marks (.failed call e) s' s' ∧
      ∀ s'', Rely s' s'' → Post (marks ++ [.failed call e]) s'' (.error e)) :
    Wp Rely Fair Keep Post marks s (perform call method) :=
  fun s' hrely => ⟨fun hfair => hacted s' hrely hfair, fun e hfair => hfailed s' e hrely hfair⟩

/-- One call to the environment. -/
theorem wp_request {Post : List (Mark Q R ε) → σ → Except ε R → Prop} {call : Q}
    (hanswered : ∀ s' answer, Rely s s' → Fair marks (.answered call answer) →
      Keep marks (.answered call answer) s' s' ∧
        ∀ s'', Rely s' s'' → Post (marks ++ [.answered call answer]) s'' (.ok answer))
    (hfailed : ∀ s' e, Rely s s' → Fair marks (.failed call e) → Keep marks (.failed call e) s' s' ∧
      ∀ s'', Rely s' s'' → Post (marks ++ [.failed call e]) s'' (.error e)) :
    Wp Rely Fair Keep Post marks s (request call) :=
  fun s' hrely => ⟨fun answer hfair => hanswered s' answer hrely hfair,
    fun e hfair => hfailed s' e hrely hfair⟩

/-- A task that has ended, alone. -/
theorem wp_alone {outcome : Except ε α} (h : Post marks s outcome) :
    Wp Eq Fair Keep Post marks s (.done outcome) := by
  rintro _ rfl
  exact h

theorem wp_pure {a : α} (h : Post marks s (.ok a)) :
    Wp Eq Fair Keep Post marks s (pure a : Task σ Q R ε α) := wp_alone h

theorem wp_raise {e : ε} (h : Post marks s (.error e)) :
    Wp Eq Fair Keep Post marks s (raise e : Task σ Q R ε α) := wp_alone h

/-- A sequence of a task that runs alone. -/
theorem wp_seq {Post : List (Mark Q R ε) → σ → Except ε β → Prop} {f : α → Task σ Q R ε β}
    (h : Wp Eq Fair Keep (fun marks s outcome => match outcome with
      | .ok a => Wp Eq Fair Keep Post marks s (f a)
      | .error e => Post marks s (.error e)) marks s t) :
    Wp Eq Fair Keep Post marks s (t >>= f) := by
  refine wp_bind (fun _ => rfl) (h.mono fun marks s outcome hpost => ?_)
  cases outcome with
  | ok a => exact hpost
  | error e =>
    rintro _ rfl
    exact hpost

-- a task that branches on a large decision is not to be evaluated: proofs use the rules
attribute [irreducible] Wp

end Veridex.Lib.Task

/-!
## What a task alone ends with

`Ends Fair s t s' outcome`: alone from `s`, with marks that are all `Fair`, the task ends in `s'` with
that outcome.

* `ends_bind`, `ends_catching`, `ends_perform`, `ends_request` take a run apart along the syntax of a
  task; `Ends.foldlM` and `Ends.interpret` are the rules of a loop and of a dialogue.
* `Raises P t`: a task that is told errors of `P` alone raises one of `P`.
-/

namespace Veridex.Lib.Task

variable {σ Q R ε α β τ : Type} {Fair : Mark Q R ε → Prop} {s s' : σ}

/-- The task runs alone, and ends. -/
def Ends (Fair : Mark Q R ε → Prop) : σ → Task σ Q R ε α → σ → Except ε α → Prop
  | s, .done outcome, s', outcome' => s' = s ∧ outcome' = outcome
  | s, .act call update next, s', outcome =>
    (Fair (.acted call) ∧ Ends Fair (update s) (next (.ok s)) s' outcome) ∨
      ∃ e, Fair (.failed call e) ∧ Ends Fair s (next (.error e)) s' outcome
  | s, .ask call next, s', outcome =>
    (∃ answer, Fair (.answered call answer) ∧ Ends Fair s (next (.ok answer)) s' outcome) ∨
      ∃ e, Fair (.failed call e) ∧ Ends Fair s (next (.error e)) s' outcome

/-- The steps of a task that has ended. -/
theorem ends_of_steps {t t' : Task σ Q R ε α} {marks : List (Mark Q R ε)} {outcome : Except ε α}
    (h : Steps s t marks s' t') (hfair : ∀ mark ∈ marks, Fair mark) (hdone : t' = .done outcome) :
    Ends Fair s t s' outcome := by
  induction h with
  | nil =>
    subst hdone
    exact ⟨rfl, rfl⟩
  | cons step _ ih =>
    have hrest := ih (fun mark hmark => hfair mark (List.mem_cons_of_mem _ hmark)) hdone
    have hmark := hfair _ List.mem_cons_self
    cases step with
    | acted => exact .inl ⟨hmark, hrest⟩
    | refused e => exact .inr ⟨e, hmark, hrest⟩
    | answered answer => exact .inl ⟨answer, hmark, hrest⟩
    | failed e => exact .inr ⟨e, hmark, hrest⟩

theorem ends_pure {a : α} {outcome : Except ε α} :
    Ends Fair s (pure a : Task σ Q R ε α) s' outcome ↔ s' = s ∧ outcome = .ok a := Iff.rfl

theorem ends_raise {e : ε} {outcome : Except ε α} :
    Ends Fair s (raise e : Task σ Q R ε α) s' outcome ↔ s' = s ∧ outcome = .error e := Iff.rfl

/-- **Sequences.** -/
theorem Ends.of_andThen {t : Task σ Q R ε α} {f : Except ε α → Task σ Q R ε β}
    {outcome : Except ε β} (h : Ends Fair s (t.andThen f) s' outcome) :
    ∃ middle first, Ends Fair s t middle first ∧ Ends Fair middle (f first) s' outcome := by
  induction t generalizing s with
  | done first => exact ⟨s, first, ⟨rfl, rfl⟩, h⟩
  | act call update next ih =>
    obtain ⟨hfair, h⟩ | ⟨e, hfair, h⟩ := h
    · obtain ⟨middle, first, hfirst, hrest⟩ := ih _ h
      exact ⟨middle, first, .inl ⟨hfair, hfirst⟩, hrest⟩
    · obtain ⟨middle, first, hfirst, hrest⟩ := ih _ h
      exact ⟨middle, first, .inr ⟨e, hfair, hfirst⟩, hrest⟩
  | ask call next ih =>
    obtain ⟨answer, hfair, h⟩ | ⟨e, hfair, h⟩ := h
    · obtain ⟨middle, first, hfirst, hrest⟩ := ih _ h
      exact ⟨middle, first, .inl ⟨answer, hfair, hfirst⟩, hrest⟩
    · obtain ⟨middle, first, hfirst, hrest⟩ := ih _ h
      exact ⟨middle, first, .inr ⟨e, hfair, hfirst⟩, hrest⟩

/-- A sequence ends with its second task, or with an error of its first. -/
theorem ends_bind {t : Task σ Q R ε α} {f : α → Task σ Q R ε β} {outcome : Except ε β}
    (h : Ends Fair s (t >>= f) s' outcome) :
    (∃ middle a, Ends Fair s t middle (.ok a) ∧ Ends Fair middle (f a) s' outcome) ∨
      ∃ e, Ends Fair s t s' (.error e) ∧ outcome = .error e := by
  obtain ⟨middle, first, hfirst, hrest⟩ := Ends.of_andThen h
  cases first with
  | ok a => exact .inl ⟨middle, a, hfirst, hrest⟩
  | error e =>
    obtain ⟨rfl, rfl⟩ := hrest
    exact .inr ⟨e, hfirst, rfl⟩

/-- A sequence that returns. -/
theorem ends_bind_ok {t : Task σ Q R ε α} {f : α → Task σ Q R ε β} {b : β}
    (h : Ends Fair s (t >>= f) s' (.ok b)) :
    ∃ middle a, Ends Fair s t middle (.ok a) ∧ Ends Fair middle (f a) s' (.ok b) := by
  obtain hok | ⟨e, -, he⟩ := ends_bind h
  · exact hok
  · exact nomatch he

/-- A handler ends a task that raises. -/
theorem ends_catching {t : Task σ Q R ε α} {handler : ε → Task σ Q R ε α} {outcome : Except ε α}
    (h : Ends Fair s (t.catching handler) s' outcome) :
    (∃ a, Ends Fair s t s' (.ok a) ∧ outcome = .ok a) ∨
      ∃ middle e, Ends Fair s t middle (.error e) ∧ Ends Fair middle (handler e) s' outcome := by
  obtain ⟨middle, first, hfirst, hrest⟩ := Ends.of_andThen h
  cases first with
  | ok a =>
    obtain ⟨rfl, rfl⟩ := hrest
    exact .inl ⟨a, hfirst, rfl⟩
  | error e => exact .inr ⟨middle, e, hfirst, hrest⟩

theorem ends_perform {call : Q} {method : σ → Except ε α × σ} {outcome : Except ε α}
    (h : Ends Fair s (perform call method : Task σ Q R ε α) s' outcome) :
    (s' = (method s).2 ∧ outcome = (method s).1) ∨
      ∃ e, Fair (.failed call e) ∧ s' = s ∧ outcome = .error e := by
  obtain ⟨-, h⟩ | ⟨e, hfair, h⟩ := h
  · exact .inl h
  · exact .inr ⟨e, hfair, h⟩

theorem ends_request {call : Q} {outcome : Except ε R}
    (h : Ends Fair s (request call : Task σ Q R ε R) s' outcome) :
    s' = s ∧ ((∃ answer, outcome = .ok answer) ∨ ∃ e, Fair (.failed call e) ∧ outcome = .error e) := by
  obtain ⟨answer, -, rfl, rfl⟩ | ⟨e, hfair, rfl, rfl⟩ := h
  · exact ⟨rfl, .inl ⟨answer, rfl⟩⟩
  · exact ⟨rfl, .inr ⟨e, hfair, rfl⟩⟩

/-- **Loops**: an invariant that every round keeps. -/
theorem Ends.foldlM {f : τ → α → Task σ Q R ε τ} (Inv : σ → τ → List α → Prop)
    (round : ∀ s a x rest s' a', Inv s a (x :: rest) → Ends Fair s (f a x) s' (.ok a') →
      Inv s' a' rest) {xs : List α} {a a' : τ} (hinv : Inv s a xs)
    (h : Ends Fair s (xs.foldlM f a) s' (.ok a')) : Inv s' a' [] := by
  induction xs generalizing s a with
  | nil =>
    obtain ⟨rfl, ha⟩ := ends_pure.mp h
    obtain rfl := Except.ok.inj ha
    exact hinv
  | cons x xs ih =>
    rw [List.foldlM_cons] at h
    obtain ⟨middle, b, hround, hrest⟩ := ends_bind_ok h
    exact ih (round s a x xs middle b hinv hround) hrest

/-- **Dialogues**: a value that is returned was heard of the dialogue, and the state is what its
questions leave. -/
theorem Ends.interpret {Q' R' ε' : Type} {lift : ε' → ε} {handle : Q' → Task σ Q R ε R'}
    (Leaves : σ → σ → Prop)
    (hhandle : ∀ question s middle s' answer, Leaves s middle →
      Ends Fair middle (handle question) s' (.ok answer) → Leaves s s') {start : σ}
    {d₀ d : Dialogue Q' R' ε' α} {a : α} {log : List (Q' × Except ε' R')}
    (hheard : Dialogue.Heard d₀ log d) (hleaves : Leaves start s)
    (h : Ends Fair s (interpret lift handle d) s' (.ok a)) :
    Leaves start s' ∧ ∃ log', Dialogue.Heard d₀ log' (.done (.ok a)) := by
  induction d generalizing s log with
  | done outcome =>
    cases outcome with
    | ok b =>
      obtain ⟨rfl, hb⟩ := ends_pure.mp h
      obtain rfl := Except.ok.inj hb
      exact ⟨hleaves, log, hheard⟩
    | error e => exact nomatch (ends_raise.mp h).2
  | ask question next ih =>
    obtain ⟨middle, answer, hanswer, hrest⟩ := ends_bind_ok h
    exact ih _ (hheard.snoc (.ok answer)) (hhandle question start s middle answer hleaves hanswer) hrest

/-! ### Errors -/

/-- Told errors of `P` alone, the task raises one of `P`. -/
def Raises (P : ε → Prop) : Task σ Q R ε α → Prop
  | .done (.ok _) => True
  | .done (.error e) => P e
  | .act _ _ next => (∀ s, Raises P (next (.ok s))) ∧ ∀ e, P e → Raises P (next (.error e))
  | .ask _ next => (∀ answer, Raises P (next (.ok answer))) ∧ ∀ e, P e → Raises P (next (.error e))

variable {P : ε → Prop}

theorem raises_pure {a : α} : Raises P (pure a : Task σ Q R ε α) := trivial

theorem raises_raise {e : ε} (h : P e) : Raises P (raise e : Task σ Q R ε α) := h

theorem raises_andThen {t : Task σ Q R ε α} {f : Except ε α → Task σ Q R ε β} (h : Raises P t)
    (hok : ∀ a, Raises P (f (.ok a))) (herror : ∀ e, P e → Raises P (f (.error e))) :
    Raises P (t.andThen f) := by
  induction t with
  | done outcome =>
    cases outcome with
    | ok a => exact hok a
    | error e => exact herror e h
  | act call update next ih => exact ⟨fun s => ih _ (h.1 s), fun e he => ih _ (h.2 e he)⟩
  | ask call next ih => exact ⟨fun answer => ih _ (h.1 answer), fun e he => ih _ (h.2 e he)⟩

theorem raises_bind {t : Task σ Q R ε α} {f : α → Task σ Q R ε β} (h : Raises P t)
    (hf : ∀ a, Raises P (f a)) : Raises P (t >>= f) := raises_andThen h hf fun _ he => he

theorem raises_catching {t : Task σ Q R ε α} {handler : ε → Task σ Q R ε α} (h : Raises P t)
    (hhandler : ∀ e, P e → Raises P (handler e)) : Raises P (t.catching handler) :=
  raises_andThen h (fun _ => trivial) hhandler

theorem raises_perform {call : Q} {method : σ → Except ε α × σ}
    (h : ∀ s e, (method s).1 = .error e → P e) :
    Raises P (perform call method : Task σ Q R ε α) := by
  refine ⟨fun s => ?_, fun e he => he⟩
  cases hread : (method s).1 with
  | ok a => simp only [hread, Raises]
  | error e =>
    simp only [hread, Raises]
    exact h s e hread

theorem raises_request {call : Q} : Raises P (request call : Task σ Q R ε R) :=
  ⟨fun _ => trivial, fun _ he => he⟩

theorem raises_foldlM {f : τ → α → Task σ Q R ε τ} (h : ∀ s a, Raises P (f s a)) :
    ∀ (as : List α) (s : τ), Raises P (as.foldlM f s)
  | [], _ => raises_pure
  | a :: as, s => by
    rw [List.foldlM_cons]
    exact raises_bind (h s a) fun s => raises_foldlM h as s

theorem raises_interpret {Q' R' ε' : Type} {lift : ε' → ε} {handle : Q' → Task σ Q R ε R'}
    (hlift : ∀ e, P (lift e)) (h : ∀ question, Raises P (handle question)) :
    ∀ d : Dialogue Q' R' ε' α, Raises P (interpret lift handle d)
  | .done (.ok _) => raises_pure
  | .done (.error e) => hlift e
  | .ask question next => raises_bind (h question) fun answer =>
      raises_interpret hlift h (next (.ok answer))

/-- **An error** that ends a task is of `P`, where it was told errors of `P` alone. -/
theorem Ends.raises {t : Task σ Q R ε α} {e : ε} (hfair : ∀ call e, Fair (.failed call e) → P e)
    (hraises : Raises P t) (h : Ends Fair s t s' (.error e)) : P e := by
  induction t generalizing s with
  | done outcome =>
    obtain ⟨-, rfl⟩ := h
    exact hraises
  | act call update next ih =>
    obtain ⟨-, h⟩ | ⟨e', he', h⟩ := h
    · exact ih _ (hraises.1 s) h
    · exact ih _ (hraises.2 e' (hfair _ _ he')) h
  | ask call next ih =>
    obtain ⟨answer, -, h⟩ | ⟨e', he', h⟩ := h
    · exact ih _ (hraises.1 answer) h
    · exact ih _ (hraises.2 e' (hfair _ _ he')) h

attribute [irreducible] Ends Raises

end Veridex.Lib.Task
