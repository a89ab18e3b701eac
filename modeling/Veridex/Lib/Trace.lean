import Mathlib

/-!
# Entries of a log, each with the entries before it

`EachAfter P log` says that every entry of a log satisfies `P`, which also sees the entries before
it. A log that is cut in two satisfies it when its first part does and the second does after the
first (`eachAfter_append`), so a run that appends to a log is followed part by part.
-/

namespace Veridex.Lib

variable {κ : Type*} {P Q : List κ → κ → Prop} {log log' : List κ}

/-- Every entry satisfies `P` after the entries before it. -/
def EachAfter (P : List κ → κ → Prop) (log : List κ) : Prop :=
  ∀ pre entry post, log = pre ++ entry :: post → P pre entry

theorem eachAfter_nil : EachAfter P [] := by
  intro pre entry post h
  simp at h

theorem eachAfter_singleton {entry : κ} : EachAfter P [entry] ↔ P [] entry := by
  constructor
  · intro h
    exact h [] entry [] rfl
  · intro h pre entry' post heq
    cases pre with
    | nil =>
      obtain ⟨rfl, -⟩ := List.cons.inj heq
      exact h
    | cons _ _ => simp at heq

theorem EachAfter.imp (h : EachAfter P log) (hPQ : ∀ pre entry, P pre entry → Q pre entry) :
    EachAfter Q log := fun pre entry post heq => hPQ _ _ (h pre entry post heq)

/-- What holds of an entry whatever was before it. -/
theorem eachAfter_of_forall (h : ∀ entry ∈ log, ∀ pre, P pre entry) : EachAfter P log := by
  rintro pre entry post rfl
  exact h entry (by simp) pre

/-- **A log cut in two.** -/
theorem eachAfter_append : EachAfter P (log ++ log') ↔
    EachAfter P log ∧ EachAfter (fun pre => P (log ++ pre)) log' := by
  constructor
  · intro h
    constructor
    · rintro pre entry post rfl
      exact h pre entry (post ++ log') (by simp)
    · rintro pre entry post rfl
      exact h (log ++ pre) entry post (by simp)
  · rintro ⟨h, h'⟩ pre entry post heq
    rcases List.append_eq_append_iff.mp heq with ⟨mid, rfl, heq'⟩ | ⟨mid, rfl, heq'⟩
    · exact h' mid entry post heq'
    · cases mid with
      | nil => simpa using h' [] entry post (by simpa using heq'.symm)
      | cons entry' mid =>
        obtain ⟨rfl, -⟩ := List.cons.inj heq'
        exact h pre entry mid rfl

/-- **The entry after `n` entries that satisfy `p`**, where more than `n` do. -/
theorem exists_entry_after {p : κ → Bool} : ∀ {log : List κ} {n : ℕ}, n < log.countP p →
    ∃ pre entry post, log = pre ++ entry :: post ∧ p entry = true ∧ pre.countP p = n := by
  intro log
  induction log with
  | nil =>
    intro n h
    simp at h
  | cons entry log ih =>
    intro n h
    rw [List.countP_cons] at h
    by_cases hp : p entry = true
    · cases n with
      | zero => exact ⟨[], entry, log, rfl, hp, rfl⟩
      | succ n =>
        obtain ⟨pre, entry', post, rfl, hp', hpre⟩ := ih (by simpa [hp] using h)
        exact ⟨entry :: pre, entry', post, rfl, hp', by simp [hp, hpre]⟩
    · obtain ⟨pre, entry', post, rfl, hp', hpre⟩ := ih (by simpa [hp] using h)
      exact ⟨entry :: pre, entry', post, rfl, hp', by simp [hp, hpre]⟩

end Veridex.Lib
