import Mathlib

/-!
# Labelled runs

A system takes labelled steps; `Run step s ls t` is a run from `s` to `t` that shows the labels
`ls`, in order. `Run.invariant` packages the induction: what holds before the first step and is
kept by every step, of the labels shown so far and the state reached, holds of every run.

* `Run.related`: what every step climbs, a run climbs.
* `Run.projected`: where every step of a run is one of another system, seen through a projection, the
  run is one of that system.
* `Run.single`, `Run.trans`, `Run.append_inv`: runs are composed and cut at any label; `Run.cons` and
  `Run.cons_inv` at the first one.
* `Run.step_at`: the step that shows a given label.
-/

namespace Veridex.Lib

variable {σ ℓ : Type*}

/-- A run from `s` to its last state, with the labels it shows. -/
inductive Run (step : σ → ℓ → σ → Prop) (s : σ) : List ℓ → σ → Prop
  | nil : Run step s [] s
  | snoc {ls : List ℓ} {l : ℓ} {t u : σ} (run : Run step s ls t) (last : step t l u) :
      Run step s (ls ++ [l]) u

namespace Run

variable {step : σ → ℓ → σ → Prop} {s t u : σ} {l : ℓ} {ls ms : List ℓ}

theorem single (h : step s l t) : Run step s [l] t := .snoc .nil h

theorem trans (h₁ : Run step s ls t) (h₂ : Run step t ms u) : Run step s (ls ++ ms) u := by
  induction h₂ with
  | nil => rwa [List.append_nil]
  | snoc _ last ih =>
    rw [← List.append_assoc]
    exact .snoc ih last

/-- **Invariants**: what every step keeps, of the labels shown and the state reached. -/
theorem invariant (Inv : List ℓ → σ → Prop) (h : Run step s ls t) (init : Inv [] s)
    (keep : ∀ ls l t u, Inv ls t → step t l u → Inv (ls ++ [l]) u) : Inv ls t := by
  induction h with
  | nil => exact init
  | snoc _ last ih => exact keep _ _ _ _ ih last

/-- **Relations**: a preorder that every step climbs relates both ends of a run. -/
theorem related {R : σ → σ → Prop} (h : Run step s ls t) (refl : ∀ s, R s s)
    (trans : ∀ {s t u}, R s t → R t u → R s u) (climb : ∀ {s l t}, step s l t → R s t) : R s t :=
  h.invariant (fun _ t => R s t) (refl s) fun _ _ _ _ ih hstep => trans ih (climb hstep)

/-- **Projections**: a run whose every step is one of another system between the projected states,
under a label that shows the same, is a run of that system that shows the same. -/
theorem projected {τ κ α : Type*} {step' : τ → κ → τ → Prop} (f : σ → τ) (g : ℓ → α) (g' : κ → α)
    (h : Run step s ls t)
    (sim : ∀ pre l post t u, ls = pre ++ l :: post → Run step s pre t → step t l u →
      ∃ k, g' k = g l ∧ step' (f t) k (f u)) :
    ∃ ks, ks.map g' = ls.map g ∧ Run step' (f s) ks (f t) := by
  induction h with
  | nil => exact ⟨[], rfl, .nil⟩
  | @snoc ls l t u run last ih =>
    obtain ⟨ks, hks, hrun⟩ := ih fun pre l' post t' u' hls =>
      sim pre l' (post ++ [l]) t' u' (by simp [hls])
    obtain ⟨k, hk, hstep⟩ := sim ls l [] t u rfl run last
    exact ⟨ks ++ [k], by simp [hks, hk], .snoc hrun hstep⟩

theorem nil_inv (h : Run step s [] t) : t = s := by
  generalize hls : ([] : List ℓ) = ls at h
  cases h with
  | nil => rfl
  | snoc _ _ => simp at hls

theorem snoc_inv (h : Run step s (ls ++ [l]) u) : ∃ t, Run step s ls t ∧ step t l u := by
  generalize hls : ls ++ [l] = ls' at h
  cases h with
  | nil => simp at hls
  | snoc run last =>
    obtain ⟨rfl, hl⟩ := List.append_inj' hls rfl
    obtain rfl : l = _ := by simpa using hl
    exact ⟨_, run, last⟩

theorem append_inv : ∀ {ms : List ℓ} {u : σ}, Run step s (ls ++ ms) u →
    ∃ t, Run step s ls t ∧ Run step t ms u := by
  intro ms
  induction ms using List.reverseRecOn with
  | nil =>
    intro u h
    rw [List.append_nil] at h
    exact ⟨u, h, .nil⟩
  | append_singleton ms l ih =>
    intro u h
    rw [← List.append_assoc] at h
    obtain ⟨t, ht, hl⟩ := snoc_inv h
    obtain ⟨r, hr, hrt⟩ := ih ht
    exact ⟨r, hr, .snoc hrt hl⟩

/-- A run whose first label is known takes that step first. -/
theorem cons_inv (h : Run step s (l :: ls) u) : ∃ t, step s l t ∧ Run step t ls u := by
  obtain ⟨t, hfirst, hrest⟩ := append_inv (show Run step s ([l] ++ ls) u from h)
  obtain ⟨r, hr, hstep⟩ := snoc_inv (show Run step s ([] ++ [l]) t from hfirst)
  exact ⟨t, nil_inv hr ▸ hstep, hrest⟩

theorem cons (h₁ : step s l t) (h₂ : Run step t ls u) : Run step s (l :: ls) u :=
  (single h₁).trans h₂

/-- The step that shows a label. -/
theorem step_at (h : Run step s (ls ++ l :: ms) u) :
    ∃ t t', Run step s ls t ∧ step t l t' ∧ Run step t' ms u := by
  rw [List.append_cons] at h
  obtain ⟨t', hpre, hpost⟩ := append_inv h
  obtain ⟨t, hrun, hstep⟩ := snoc_inv hpre
  exact ⟨t, t', hrun, hstep, hpost⟩

end Run

end Veridex.Lib

/-!
## High-water marks

A mark is an optional value of the state: unset at first, and never below what it was once set
(`NeverDecreases`). `HighWater step mark stamp` says that a system takes a label only above its mark,
and then moves the mark to the label's stamp; a label it does not take leaves the state.

* `Run.neverDecreases`: a mark that every step keeps from falling does not fall over a run.
* `HighWater.redelivered`: a label whose stamp was reached is not taken again.
-/

namespace Veridex.Lib

variable {σ ℓ α : Type*}

/-- A mark that is set stays set, and does not fall. -/
def NeverDecreases [LE α] (before after : Option α) : Prop :=
  ∀ x ∈ before, ∃ y ∈ after, x ≤ y

section Marks

variable [Preorder α] {a b c : Option α}

theorem NeverDecreases.refl (a : Option α) : NeverDecreases a a := fun x hx => ⟨x, hx, le_rfl⟩

theorem NeverDecreases.trans (hab : NeverDecreases a b) (hbc : NeverDecreases b c) :
    NeverDecreases a c := by
  intro x hx
  obtain ⟨y, hy, hxy⟩ := hab x hx
  obtain ⟨z, hz, hyz⟩ := hbc y hy
  exact ⟨z, hz, hxy.trans hyz⟩

theorem neverDecreases_some {y : α} (h : ∀ x ∈ a, x ≤ y) : NeverDecreases a (some y) :=
  fun x hx => ⟨y, rfl, h x hx⟩

/-- A mark that no step lowers is not lowered by a run. -/
theorem Run.neverDecreases {step : σ → ℓ → σ → Prop} {mark : σ → Option α} {s t : σ} {ls : List ℓ}
    (h : Run step s ls t) (climb : ∀ {s l t}, step s l t → NeverDecreases (mark s) (mark t)) :
    NeverDecreases (mark s) (mark t) :=
  h.related (R := fun s t => NeverDecreases (mark s) (mark t)) (fun s => .refl (mark s))
    NeverDecreases.trans climb

end Marks

/-- A label is taken above the mark only, and the mark moves to it. -/
def HighWater [LT α] (step : σ → ℓ → σ → Prop) (mark : σ → Option α) (stamp : ℓ → α) : Prop :=
  ∀ ⦃s l t⦄, step s l t → t = s ∨ (mark t = some (stamp l) ∧ ∀ m ∈ mark s, m < stamp l)

section HighWater

variable [Preorder α] {step : σ → ℓ → σ → Prop} {mark : σ → Option α} {stamp : ℓ → α}

theorem HighWater.climb (h : HighWater step mark stamp) {s t : σ} {l : ℓ} (hstep : step s l t) :
    NeverDecreases (mark s) (mark t) := by
  obtain rfl | ⟨hmark, habove⟩ := h hstep
  · exact .refl _
  · rw [hmark]
    exact neverDecreases_some fun m hm => (habove m hm).le

/-- **A second delivery changes nothing**: once the mark reached a stamp, no label stamped as low is
taken, however long after. -/
theorem HighWater.redelivered (h : HighWater step mark stamp) {s t u : σ} {ls : List ℓ} {l again : ℓ}
    (hreached : mark s = some (stamp l)) (hrun : Run step s ls t) (hstep : step t again u)
    (hstamp : stamp again ≤ stamp l) : u = t := by
  obtain rfl | ⟨-, habove⟩ := h hstep
  · rfl
  · have hclimb : NeverDecreases (mark s) (mark t) := hrun.neverDecreases h.climb
    obtain ⟨m, hm, hle⟩ := hclimb (stamp l) hreached
    exact absurd (habove m hm) (hstamp.trans hle).not_gt

end HighWater

end Veridex.Lib
