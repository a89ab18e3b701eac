import Mathlib

/-!
# Computations over a state that survives a raise

`Prog σ ε` computes over a state `σ` and may raise an `ε`. A raise ends the computation with the
state as it stands, which is what an exception does to the objects it unwinds past: unlike
`StateT σ (Except ε)`, nothing done before the raise is undone.

* `exec` runs a computation; `exec_bind_cases` takes a sequence apart at its first computation and
  `exec_bind_ok`, `exec_bind_error` step over it. `exec_bind_returned` takes one that returns apart,
  and `exec_ofExcept_cases`, `exec_ofExcept_returned` do where it starts from a fallible value.
* `Keeps R m`: every run of `m`, returning or raising, relates its end to its start by `R`. The
  relation is a preorder and the rules follow the syntax of `m`.
* `Returns m`: no run of `m` raises.
* `zoom` runs a computation over a part of a larger state.
* `Grows log P`: an append-only log has grown by entries that satisfy `P`, a preorder to use with
  `Keeps`.
-/

namespace Veridex.Lib

/-- A computation over a state that survives a raise. -/
abbrev Prog (σ ε : Type) (α : Type) : Type := ExceptT ε (StateM σ) α

namespace Prog

variable {σ ε α β : Type} {m : Prog σ ε α} {f : α → Prog σ ε β} {s t u : σ}

/-- Run a computation: what it returns or raises, and the state it leaves. -/
def exec (m : Prog σ ε α) (s : σ) : Except ε α × σ := StateT.run (ExceptT.run m) s

/-- Two computations with the same runs are the same. -/
theorem ext_exec {m m' : Prog σ ε α} (h : ∀ s, m.exec s = m'.exec s) : m = m' := funext h

/-- An `Except` as a computation. -/
def ofExcept : Except ε α → Prog σ ε α
  | .ok a => pure a
  | .error e => throw e

/-! ## Running the constructs -/

@[simp] theorem exec_pure (a : α) : (pure a : Prog σ ε α).exec s = (.ok a, s) := rfl

@[simp] theorem exec_throw (e : ε) : (throw e : Prog σ ε α).exec s = (.error e, s) := rfl

@[simp] theorem exec_get : (get : Prog σ ε σ).exec s = (.ok s, s) := rfl

@[simp] theorem exec_modify (g : σ → σ) :
    (modify g : Prog σ ε PUnit).exec s = (.ok ⟨⟩, g s) := rfl

@[simp] theorem exec_ofExcept (x : Except ε α) : (ofExcept x : Prog σ ε α).exec s = (x, s) := by
  cases x <;> rfl

theorem exec_bind (m : Prog σ ε α) (f : α → Prog σ ε β) (s : σ) :
    (m >>= f).exec s = match m.exec s with
      | (.ok a, t) => (f a).exec t
      | (.error e, t) => (.error e, t) := by
  simp only [exec, bind, ExceptT.bind, ExceptT.mk, ExceptT.run, StateT.run, StateT.bind]
  rcases m s with ⟨_ | _, _⟩ <;> rfl

theorem exec_bind_ok {a : α} (h : m.exec s = (.ok a, t)) : (m >>= f).exec s = (f a).exec t := by
  rw [exec_bind, h]

theorem exec_bind_error {e : ε} (h : m.exec s = (.error e, t)) :
    (m >>= f).exec s = (.error e, t) := by
  rw [exec_bind, h]

/-- **A sequence taken apart**: the first computation raises, or the second runs where it left. -/
theorem exec_bind_cases {r : Except ε β} (h : (m >>= f).exec s = (r, u)) :
    (∃ e, m.exec s = (.error e, u) ∧ r = .error e) ∨
      ∃ a t, m.exec s = (.ok a, t) ∧ (f a).exec t = (r, u) := by
  rw [exec_bind] at h
  rcases hm : m.exec s with ⟨e | a, t⟩
  · rw [hm] at h
    obtain ⟨rfl, rfl⟩ := Prod.mk.inj h
    exact .inl ⟨e, rfl, rfl⟩
  · rw [hm] at h
    exact .inr ⟨a, t, rfl, h⟩

/-- **A sequence that returns**: both computations return. -/
theorem exec_bind_returned {b : β} (h : (m >>= f).exec s = (.ok b, u)) :
    ∃ a t, m.exec s = (.ok a, t) ∧ (f a).exec t = (.ok b, u) := by
  obtain ⟨e, -, herr⟩ | hboth := exec_bind_cases h
  · simp at herr
  · exact hboth

/-- A sequence that starts from a fallible value. -/
theorem exec_ofExcept_cases {x : Except ε α} {r : Except ε β}
    (h : (ofExcept x >>= f).exec s = (r, u)) :
    (∃ e, x = .error e ∧ r = .error e ∧ u = s) ∨ ∃ a, x = .ok a ∧ (f a).exec s = (r, u) := by
  rcases exec_bind_cases h with ⟨e, hx, hr⟩ | ⟨a, t, hx, hf⟩
  · rw [exec_ofExcept, Prod.mk.injEq] at hx
    exact .inl ⟨e, hx.1, hr, hx.2.symm⟩
  · rw [exec_ofExcept, Prod.mk.injEq] at hx
    obtain ⟨hx, rfl⟩ := hx
    exact .inr ⟨a, hx, hf⟩

/-- A sequence that returns from a fallible value: the value is there. -/
theorem exec_ofExcept_returned {x : Except ε α} {b : β}
    (h : (ofExcept x >>= f).exec s = (.ok b, u)) : ∃ a, x = .ok a ∧ (f a).exec s = (.ok b, u) := by
  obtain ⟨e, -, herr, -⟩ | hvalue := exec_ofExcept_cases h
  · simp at herr
  · exact hvalue

theorem exec_tryCatch (m : Prog σ ε α) (handler : ε → Prog σ ε α) (s : σ) :
    (tryCatch m handler).exec s = match m.exec s with
      | (.ok a, t) => (.ok a, t)
      | (.error e, t) => (handler e).exec t := by
  simp only [exec, tryCatch, tryCatchThe, MonadExceptOf.tryCatch, ExceptT.tryCatch, ExceptT.mk,
    ExceptT.run, StateT.run, bind, StateT.bind]
  rcases m s with ⟨_ | _, _⟩ <;> rfl

/-! ## What every run keeps -/

/-- Every run relates its end to its start. -/
def Keeps (R : σ → σ → Prop) (m : Prog σ ε α) : Prop := ∀ s, R s (m.exec s).2

section Keeps

variable {R : σ → σ → Prop}

theorem Keeps.of_exec {r : Except ε α} (h : Keeps R m) (hexec : m.exec s = (r, t)) : R s t := by
  have := h s
  rwa [hexec] at this

theorem Keeps.mono {R' : σ → σ → Prop} (h : Keeps R m) (hR : ∀ s t, R s t → R' s t) :
    Keeps R' m := fun s => hR _ _ (h s)

variable [Std.Refl R]

theorem keeps_pure (a : α) : Keeps R (pure a : Prog σ ε α) := fun s => Std.Refl.refl s

theorem keeps_throw (e : ε) : Keeps R (throw e : Prog σ ε α) := fun s => Std.Refl.refl s

theorem keeps_get : Keeps R (get : Prog σ ε σ) := fun s => Std.Refl.refl s

omit [Std.Refl R] in
theorem keeps_modify {g : σ → σ} (h : ∀ s, R s (g s)) : Keeps R (modify g : Prog σ ε PUnit) := h

theorem keeps_ofExcept (x : Except ε α) : Keeps R (ofExcept x : Prog σ ε α) := fun s => by
  rw [exec_ofExcept]
  exact Std.Refl.refl s

omit [Std.Refl R] in
theorem keeps_bind [IsTrans σ R] (hm : Keeps R m) (hf : ∀ a, Keeps R (f a)) :
    Keeps R (m >>= f) := by
  intro s
  rw [exec_bind]
  have hs := hm s
  rcases h : m.exec s with ⟨e | a, t⟩
  · rwa [h] at hs
  · rw [h] at hs
    exact IsTrans.trans _ _ _ hs (hf a t)

omit [Std.Refl R] in
theorem keeps_tryCatch [IsTrans σ R] {handler : ε → Prog σ ε α} (hm : Keeps R m)
    (hh : ∀ e, Keeps R (handler e)) : Keeps R (tryCatch m handler) := by
  intro s
  rw [exec_tryCatch]
  have hs := hm s
  rcases h : m.exec s with ⟨e | a, t⟩
  · rw [h] at hs
    exact IsTrans.trans _ _ _ hs (hh e t)
  · rwa [h] at hs

end Keeps

/-! ## What every run returns -/

/-- No run raises. -/
def Returns (m : Prog σ ε α) : Prop := ∀ s, ∃ a t, m.exec s = (.ok a, t)

theorem returns_pure (a : α) : Returns (pure a : Prog σ ε α) := fun s => ⟨a, s, rfl⟩

theorem returns_ofExcept {x : Except ε α} {a : α} (h : x = .ok a) :
    Returns (ofExcept x : Prog σ ε α) := fun s => ⟨a, s, by rw [exec_ofExcept, h]⟩

theorem returns_bind (hm : Returns m) (hf : ∀ a, Returns (f a)) : Returns (m >>= f) := by
  intro s
  obtain ⟨a, t, hmt⟩ := hm s
  obtain ⟨b, u, hfu⟩ := hf a t
  exact ⟨b, u, (exec_bind_ok hmt).trans hfu⟩

/-! ## A part of the state -/

section Zoom

variable {τ : Type} {part : τ → σ} {put : σ → τ → τ} {x : τ}

/-- A computation over a part of the state. -/
def zoom (part : τ → σ) (put : σ → τ → τ) (m : Prog σ ε α) : Prog τ ε α :=
  ExceptT.mk fun x => match m.exec (part x) with
    | (r, s) => (r, put s x)

theorem exec_zoom : (zoom part put m).exec x = ((m.exec (part x)).1, put (m.exec (part x)).2 x) :=
  rfl

end Zoom

/-! ## Append-only logs -/

/-- The log has grown by entries that satisfy `P`. -/
def Grows {κ : Type} (log : σ → List κ) (P : κ → Prop) (s t : σ) : Prop :=
  ∃ new, log t = log s ++ new ∧ ∀ entry ∈ new, P entry

section Grows

variable {κ : Type} {log : σ → List κ} {P Q : κ → Prop}

instance : Std.Refl (Grows log P) := ⟨fun _ => ⟨[], by simp⟩⟩

instance : IsTrans σ (Grows log P) := ⟨fun _ _ _ ⟨new, h, hP⟩ ⟨new', h', hP'⟩ =>
  ⟨new ++ new', by rw [h', h, List.append_assoc], fun entry hmem =>
    (List.mem_append.mp hmem).elim (hP entry) (hP' entry)⟩⟩

theorem Grows.imp (h : Grows log P s t) (hPQ : ∀ entry, P entry → Q entry) : Grows log Q s t :=
  let ⟨new, hnew, hP⟩ := h
  ⟨new, hnew, fun entry hmem => hPQ entry (hP entry hmem)⟩

end Grows

end Prog

end Veridex.Lib
