import Veridex.Lib.Prog

/-!
# Two computations run side by side

`Couples lone P m m' Q` says that from states related by `P` the two computations either both
return, with values and states related by `Q`, or both raise; the second may also raise by itself,
where `lone` holds. The rules follow the common syntax of the two, and a part where they differ is
run on each side (`couples_of_exec`). What a coupled pair returns is read off with `Couples.ok`,
`Couples.ok_left` and `Couples.ok_right`.
-/

namespace Veridex.Lib.Prog

variable {σ τ ε δ α β α' β' : Type} {lone : Prop} {P P' : σ → τ → Prop}

/-- Two returns related by `Q`, or two raises, or a raise of the second alone. -/
def Paired (lone : Prop) (Q : α → β → σ → τ → Prop) : Except ε α × σ → Except δ β × τ → Prop
  | (.ok a, s), (.ok b, t) => Q a b s t
  | (.error _, _), (.error _, _) => True
  | (.ok _, _), (.error _, _) => lone
  | (.error _, _), (.ok _, _) => False

/-- From related states both computations return, with related outcomes, or both raise, unless the
second raises alone. -/
def Couples (lone : Prop) (P : σ → τ → Prop) (m : Prog σ ε α) (m' : Prog τ δ β)
    (Q : α → β → σ → τ → Prop) : Prop :=
  ∀ s t, P s t → Paired lone Q (m.exec s) (m'.exec t)

section Rules

variable {m : Prog σ ε α} {m' : Prog τ δ β} {Q Q' : α → β → σ → τ → Prop}

/-- Two computations that both return, run on each side. -/
theorem couples_of_exec (h : ∀ s t, P s t → ∃ a s' b t', m.exec s = (.ok a, s') ∧
    m'.exec t = (.ok b, t') ∧ Q a b s' t') : Couples lone P m m' Q := by
  intro s t hst
  obtain ⟨a, s', b, t', hm, hm', hQ⟩ := h s t hst
  rw [hm, hm']
  exact hQ

theorem couples_pure {a : α} {b : β} (h : ∀ s t, P s t → Q a b s t) :
    Couples lone P (pure a : Prog σ ε α) (pure b : Prog τ δ β) Q := h

theorem couples_throw (e : ε) (e' : δ) :
    Couples lone P (throw e : Prog σ ε α) (throw e' : Prog τ δ β) Q := fun _ _ _ => trivial

/-- The same fallible value on both sides. -/
theorem couples_ofExcept (x : Except ε α) :
    Couples lone P (ofExcept x : Prog σ ε α) (ofExcept x : Prog τ ε α)
      fun a b s t => x = .ok a ∧ b = a ∧ P s t := by
  intro s t hst
  rw [exec_ofExcept, exec_ofExcept]
  cases x with
  | error e => trivial
  | ok a => exact ⟨rfl, rfl, hst⟩

theorem couples_get : Couples lone P (get : Prog σ ε σ) (get : Prog τ δ τ)
    fun a b s t => a = s ∧ b = t ∧ P s t :=
  fun _ _ hst => ⟨rfl, rfl, hst⟩

theorem couples_modify {g : σ → σ} {g' : τ → τ} {R : σ → τ → Prop}
    (h : ∀ s t, P s t → R (g s) (g' t)) :
    Couples lone P (modify g : Prog σ ε PUnit) (modify g' : Prog τ δ PUnit) fun _ _ => R := h

theorem Couples.mono (h : Couples lone P m m' Q) (hP : ∀ s t, P' s t → P s t)
    (hQ : ∀ a b s t, Q a b s t → Q' a b s t) : Couples lone P' m m' Q' := by
  intro s t hst
  have hpaired : Paired lone Q (m.exec s) (m'.exec t) := h s t (hP s t hst)
  generalize m.exec s = x at hpaired ⊢
  generalize m'.exec t = y at hpaired ⊢
  rcases x with ⟨_ | a, s'⟩ <;> rcases y with ⟨_ | b, t'⟩
  · trivial
  · exact hpaired
  · exact hpaired
  · exact hQ a b s' t' hpaired

/-- **Two sequences**, coupled at each part. -/
theorem couples_bind {f : α → Prog σ ε α'} {f' : β → Prog τ δ β'}
    {T : α' → β' → σ → τ → Prop} (hm : Couples lone P m m' Q)
    (hf : ∀ a b, Couples lone (Q a b) (f a) (f' b) T) :
    Couples lone P (m >>= f) (m' >>= f') T := by
  intro s t hst
  have hpaired : Paired lone Q (m.exec s) (m'.exec t) := hm s t hst
  rw [exec_bind, exec_bind]
  generalize m.exec s = x at hpaired ⊢
  generalize m'.exec t = y at hpaired ⊢
  rcases x with ⟨_ | a, s'⟩ <;> rcases y with ⟨_ | b, t'⟩
  · trivial
  · exact False.elim hpaired
  · -- the second raised alone, and the first goes on
    simp only
    rcases (f a).exec s' with ⟨_ | a', u⟩
    · trivial
    · exact hpaired
  · exact hf a b s' t' hpaired

/-- Two computations that return and keep the states related. -/
theorem couples_of_returns {R : σ → σ → Prop} {R' : τ → τ → Prop} (hm : Returns m)
    (hm' : Returns m') (hR : Keeps R m) (hR' : Keeps R' m')
    (hP : ∀ s s' t t', P s t → R s s' → R' t t' → P s' t') :
    Couples lone P m m' fun _ _ => P := by
  refine couples_of_exec fun s t hst => ?_
  obtain ⟨a, s', hs⟩ := hm s
  obtain ⟨b, t', ht⟩ := hm' t
  exact ⟨a, s', b, t', hs, ht, hP s s' t t' hst (hR.of_exec hs) (hR'.of_exec ht)⟩

/-- **The frame rule**: what each side keeps by itself since some earlier state stays kept. -/
theorem Couples.frame {R : σ → σ → Prop} {R' : τ → τ → Prop} [IsTrans σ R] [IsTrans τ R'] {s₀ : σ}
    {t₀ : τ} (h : Couples lone P m m' Q) (hm : Keeps R m) (hm' : Keeps R' m') :
    Couples lone (fun s t => (R s₀ s ∧ R' t₀ t) ∧ P s t) m m'
      fun a b s t => (R s₀ s ∧ R' t₀ t) ∧ Q a b s t := by
  rintro s t ⟨⟨hs, ht⟩, hst⟩
  have hpaired : Paired lone Q (m.exec s) (m'.exec t) := h s t hst
  have hms := hm s
  have hmt := hm' t
  generalize m.exec s = x at hpaired hms ⊢
  generalize m'.exec t = y at hpaired hmt ⊢
  rcases x with ⟨_ | a, s'⟩ <;> rcases y with ⟨_ | b, t'⟩
  · trivial
  · exact hpaired
  · exact hpaired
  · exact ⟨⟨IsTrans.trans _ _ _ hs hms, IsTrans.trans _ _ _ ht hmt⟩, hpaired⟩

/-- What holds of every value the first returns. -/
theorem Couples.and_ok {T : α → Prop} (h : Couples lone P m m' Q)
    (hm : ∀ s a s', m.exec s = (.ok a, s') → T a) :
    Couples lone P m m' fun a b s t => T a ∧ Q a b s t := by
  intro s t hst
  have hpaired : Paired lone Q (m.exec s) (m'.exec t) := h s t hst
  generalize m'.exec t = y at hpaired ⊢
  rcases hx : m.exec s with ⟨_ | a, s'⟩ <;> rw [hx] at hpaired <;> rcases y with ⟨_ | b, t'⟩
  · trivial
  · exact hpaired
  · exact hpaired
  · exact ⟨hm s a s' hx, hpaired⟩

end Rules

section Outcomes

variable {m : Prog σ ε α} {m' : Prog τ δ β} {Q : α → β → σ → τ → Prop} {s s' : σ} {t t' : τ}

theorem Couples.ok (h : Couples lone P m m' Q) (hst : P s t) {a : α} {b : β}
    (hm : m.exec s = (.ok a, s')) (hm' : m'.exec t = (.ok b, t')) : Q a b s' t' := by
  have hpaired : Paired lone Q (m.exec s) (m'.exec t) := h s t hst
  rwa [hm, hm'] at hpaired

/-- Where the first returns, so does the second, unless it may raise alone. -/
theorem Couples.ok_right (h : Couples lone P m m' Q) (hst : P s t) (hlone : ¬ lone) {a : α}
    (hm : m.exec s = (.ok a, s')) : ∃ b t', m'.exec t = (.ok b, t') := by
  have hpaired : Paired lone Q (m.exec s) (m'.exec t) := h s t hst
  rw [hm] at hpaired
  rcases hm' : m'.exec t with ⟨_ | b, t'⟩
  · rw [hm'] at hpaired
    exact absurd hpaired hlone
  · exact ⟨b, t', rfl⟩

/-- Where the second returns, so does the first. -/
theorem Couples.ok_left (h : Couples lone P m m' Q) (hst : P s t) {b : β}
    (hm' : m'.exec t = (.ok b, t')) : ∃ a s', m.exec s = (.ok a, s') := by
  have hpaired : Paired lone Q (m.exec s) (m'.exec t) := h s t hst
  rw [hm'] at hpaired
  rcases hm : m.exec s with ⟨_ | a, s'⟩
  · rw [hm] at hpaired
    exact False.elim hpaired
  · exact ⟨a, s', rfl⟩

end Outcomes

end Veridex.Lib.Prog
