import Mathlib

/-!
# Computations that may fail

A computation in `Except` returns when its parts do (`bind_eq_ok`, `exists_bind_ok`); `mapM` returns
exactly when every element does, and what it returns is the results in
order (`mapM_eq_ok`). `Alike R` says that two computations raise the same or return what `R` relates;
folds keep it (`foldlM_alike`).
-/

namespace Veridex.Lib

variable {ε α β : Type}

theorem bind_eq_ok {x : Except ε α} {f : α → Except ε β} {b : β} :
    (x >>= f) = .ok b ↔ ∃ a, x = .ok a ∧ f a = .ok b := by
  cases x with
  | error e => simp [bind, Except.bind]
  | ok a => simp [bind, Except.bind]

theorem bind_eq_error {x : Except ε α} {f : α → Except ε β} {e : ε} :
    (x >>= f) = .error e ↔ x = .error e ∨ ∃ a, x = .ok a ∧ f a = .error e := by
  cases x with
  | error e' => simp [bind, Except.bind]
  | ok a => simp [bind, Except.bind]

/-- A computation returns when both its parts do. -/
theorem exists_bind_ok {x : Except ε α} {f : α → Except ε β} (hx : ∃ a, x = .ok a)
    (hf : ∀ a, x = .ok a → ∃ b, f a = .ok b) : ∃ b, (x >>= f) = .ok b := by
  obtain ⟨a, hx⟩ := hx
  obtain ⟨b, hb⟩ := hf a hx
  exact ⟨b, bind_eq_ok.mpr ⟨a, hx, hb⟩⟩

/-- **`mapM`** returns the results of the elements, in order. -/
theorem mapM_eq_ok {f : α → Except ε β} : ∀ {xs : List α} {ys : List β},
    xs.mapM f = .ok ys ↔ List.Forall₂ (fun x y => f x = .ok y) xs ys
  | [], ys => by
    rw [List.mapM_nil, List.forall₂_nil_left_iff]
    simp [pure, Except.pure, eq_comm]
  | x :: xs, ys => by
    rw [List.mapM_cons, bind_eq_ok, List.forall₂_cons_left_iff]
    constructor
    · rintro ⟨y, hy, h⟩
      obtain ⟨rest, hrest, hys⟩ := bind_eq_ok.mp h
      exact ⟨y, rest, hy, mapM_eq_ok.mp hrest, (Except.ok.inj hys).symm⟩
    · rintro ⟨y, rest, hy, hrest, rfl⟩
      exact ⟨y, hy, bind_eq_ok.mpr ⟨rest, mapM_eq_ok.mpr hrest, rfl⟩⟩

section Related

variable {R : α → β → Prop} {xs : List α} {ys : List β}

/-- Every member of the first of two related lists is related to one of the second. -/
theorem exists_related_of_mem (h : List.Forall₂ R xs ys) {x : α} (hx : x ∈ xs) :
    ∃ y ∈ ys, R x y := by
  induction h with
  | nil => simp at hx
  | cons hxy _ ih =>
    rcases List.mem_cons.mp hx with rfl | hx
    · exact ⟨_, List.mem_cons_self, hxy⟩
    · obtain ⟨y, hy, hrelated⟩ := ih hx
      exact ⟨y, List.mem_cons_of_mem _ hy, hrelated⟩

/-- Every member of the second of two related lists has one of the first related to it. -/
theorem exists_related_to_mem (h : List.Forall₂ R xs ys) {y : β} (hy : y ∈ ys) :
    ∃ x ∈ xs, R x y :=
  exists_related_of_mem h.flip hy

/-- Related members are members. -/
theorem forall₂_mem (h : List.Forall₂ R xs ys) :
    List.Forall₂ (fun x y => (x ∈ xs ∧ y ∈ ys) ∧ R x y) xs ys := by
  induction h with
  | nil => exact List.Forall₂.nil
  | cons hxy _ ih =>
    refine List.Forall₂.cons ⟨⟨List.mem_cons_self, List.mem_cons_self⟩, hxy⟩ (ih.imp ?_)
    rintro x y ⟨⟨hx, hy⟩, hrelated⟩
    exact ⟨⟨List.mem_cons_of_mem _ hx, List.mem_cons_of_mem _ hy⟩, hrelated⟩

/-- The last of the second of two related lists has the last of the first related to it. -/
theorem getLast?_of_forall₂ (h : List.Forall₂ R xs ys) {y : β} (hy : ys.getLast? = some y) :
    ∃ x, xs.getLast? = some x ∧ R x y := by
  induction h with
  | nil => simp at hy
  | cons hxy hrest ih =>
    cases hrest with
    | nil => exact ⟨_, rfl, Option.some.inj hy ▸ hxy⟩
    | cons hxy' hrest =>
      rw [List.getLast?_cons_cons] at hy
      obtain ⟨x, hx, hrelated⟩ := ih hy
      exact ⟨x, by rw [List.getLast?_cons_cons, hx], hrelated⟩

end Related

section Mem

variable {f : α → Except ε β} {xs : List α} {ys : List β}

/-- An element has its result. -/
theorem exists_of_mapM_ok (h : xs.mapM f = .ok ys) {x : α} (hx : x ∈ xs) :
    ∃ y ∈ ys, f x = .ok y :=
  exists_related_of_mem (mapM_eq_ok.mp h) hx

/-- A result has its element. -/
theorem exists_of_mem_mapM (h : xs.mapM f = .ok ys) {y : β} (hy : y ∈ ys) :
    ∃ x ∈ xs, f x = .ok y :=
  exists_related_to_mem (mapM_eq_ok.mp h) hy

/-- `mapM` returns when every element does. -/
theorem exists_mapM_ok : ∀ {xs : List α}, (∀ x ∈ xs, ∃ y, f x = .ok y) → ∃ ys, xs.mapM f = .ok ys
  | [], _ => ⟨[], rfl⟩
  | x :: xs, h => by
    obtain ⟨y, hy⟩ := h x List.mem_cons_self
    obtain ⟨ys, hys⟩ := exists_mapM_ok fun x' hx' => h x' (List.mem_cons_of_mem _ hx')
    refine ⟨y :: ys, ?_⟩
    rw [List.mapM_cons, hy, hys]
    rfl

theorem mapM_congr {g : α → Except ε β} (h : ∀ x ∈ xs, f x = g x) : xs.mapM f = xs.mapM g := by
  induction xs with
  | nil => rfl
  | cons x xs ih =>
    rw [List.mapM_cons, List.mapM_cons, h x List.mem_cons_self,
      ih fun y hy => h y (List.mem_cons_of_mem _ hy)]

/-- In another order, `mapM` returns the results in that order. -/
theorem exists_mapM_of_perm {xs' : List α} (hperm : xs'.Perm xs) (h : xs.mapM f = .ok ys) :
    ∃ ys', xs'.mapM f = .ok ys' ∧ ys'.Perm ys := by
  obtain ⟨ys', hall, hys⟩ := List.perm_comp_forall₂ hperm (mapM_eq_ok.mp h)
  exact ⟨ys', mapM_eq_ok.mpr hall, hys⟩

end Mem

/-! ## Two computations alike -/

section Alike

variable {α' β' γ : Type}

/-- Two computations raise the same, or return values that are related. -/
def Alike (R : α → α' → Prop) : Except ε α → Except ε α' → Prop
  | .ok a, .ok a' => R a a'
  | .error e, .error e' => e = e'
  | _, _ => False

theorem alike_rfl (x : Except ε α) : Alike Eq x x := by
  cases x with
  | error e => exact rfl
  | ok a => exact rfl

theorem alike_imp {R S : α → α' → Prop} {x : Except ε α} {x' : Except ε α'}
    (h : ∀ a a', R a a' → S a a') (hx : Alike R x x') : Alike S x x' := by
  cases x with
  | error e =>
    cases x' with
    | error e' => exact hx
    | ok a' => exact hx.elim
  | ok a =>
    cases x' with
    | error e' => exact hx.elim
    | ok a' => exact h a a' hx

theorem alike_bind {R : α → α' → Prop} {S : β → β' → Prop} {x : Except ε α} {x' : Except ε α'}
    {f : α → Except ε β} {f' : α' → Except ε β'} (hx : Alike R x x')
    (hf : ∀ a a', R a a' → Alike S (f a) (f' a')) : Alike S (x >>= f) (x' >>= f') := by
  cases x with
  | error e =>
    cases x' with
    | error e' => exact hx
    | ok a' => exact hx.elim
  | ok a =>
    cases x' with
    | error e' => exact hx.elim
    | ok a' => exact hf a a' hx

/-- **Folds** of steps that are alike are alike. -/
theorem foldlM_alike {R : β → β' → Prop} {f : β → γ → Except ε β} {f' : β' → γ → Except ε β'} :
    ∀ {xs : List γ} {b : β} {b' : β'}, R b b' →
      (∀ x ∈ xs, ∀ b b', R b b' → Alike R (f b x) (f' b' x)) →
      Alike R (xs.foldlM f b) (xs.foldlM f' b')
  | [], _, _, h, _ => h
  | x :: xs, b, b', h, hstep => by
    rw [List.foldlM_cons, List.foldlM_cons]
    refine alike_bind (hstep x List.mem_cons_self b b' h) fun c c' hc => ?_
    exact foldlM_alike hc fun y hy => hstep y (List.mem_cons_of_mem _ hy)

/-- What every step of a fold keeps, the fold keeps. -/
theorem foldlM_keeps {P : β → Prop} {f : β → γ → Except ε β} : ∀ {xs : List γ} {b c : β}, P b →
    (∀ x ∈ xs, ∀ b c, P b → f b x = .ok c → P c) → xs.foldlM f b = .ok c → P c
  | [], _, _, h, _, hfold => Except.ok.inj hfold ▸ h
  | x :: xs, b, c, h, hstep, hfold => by
    rw [List.foldlM_cons] at hfold
    obtain ⟨d, hd, hrest⟩ := bind_eq_ok.mp hfold
    exact foldlM_keeps (hstep x List.mem_cons_self b d h hd)
      (fun y hy => hstep y (List.mem_cons_of_mem _ hy)) hrest

end Alike

end Veridex.Lib
