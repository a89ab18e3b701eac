import Mathlib

/-!
# Pairing a list up to its root

`reduce pair` pairs the neighbours of a list, level by level, until one is left; the last of an odd
level is its own neighbour. Maps that respect the pairing respect it (`reduce_map`), so a root is read
off the tree of the pairings.

Results: `flatten_tree`, `prefix_completed`, `tree_eq_iff`.
-/

namespace Veridex.Lib.Merkle

variable {α β : Type}

/-! ## Levels -/

/-- The level above: the last is its own neighbour where there is an odd one. -/
def nextLevel (pair : α → α → α) : List α → List α
  | left :: right :: rest => pair left right :: nextLevel pair rest
  | [last] => [pair last last]
  | [] => []

theorem length_nextLevel (pair : α → α → α) : ∀ level : List α,
    (nextLevel pair level).length = (level.length + 1) / 2
  | [] => by simp [nextLevel]
  | [_] => by simp [nextLevel]
  | _ :: _ :: rest => by
    rw [nextLevel, List.length_cons, length_nextLevel pair rest]
    simp only [List.length_cons]
    omega

/-- The root of a list, where it is not empty. -/
def reduce (pair : α → α → α) : List α → Option α
  | [] => none
  | [root] => some root
  | left :: right :: rest => reduce pair (nextLevel pair (left :: right :: rest))
termination_by level => level.length
decreasing_by
  rw [length_nextLevel]
  simp only [List.length_cons]
  omega

theorem nextLevel_map {pair : α → α → α} {pair' : β → β → β} {f : α → β}
    (hf : ∀ a b, f (pair a b) = pair' (f a) (f b)) : ∀ level : List α,
    nextLevel pair' (level.map f) = (nextLevel pair level).map f
  | [] => rfl
  | [_] => by simp only [List.map_cons, List.map_nil, nextLevel, hf]
  | _ :: _ :: rest => by simp only [List.map_cons, nextLevel, hf, nextLevel_map hf rest]

/-- **A map that respects the pairing** respects the root. -/
theorem reduce_map {pair : α → α → α} {pair' : β → β → β} {f : α → β}
    (hf : ∀ a b, f (pair a b) = pair' (f a) (f b)) (level : List α) :
    reduce pair' (level.map f) = (reduce pair level).map f := by
  induction level using reduce.induct pair with
  | case1 => simp only [List.map_nil, reduce, Option.map_none]
  | case2 root => simp only [List.map_cons, List.map_nil, reduce, Option.map_some]
  | case3 left right rest ih =>
    rw [List.map_cons, List.map_cons, reduce, reduce, ← List.map_cons, ← List.map_cons,
      nextLevel_map hf, ih]

/-- What a level keeps holds of the root. -/
theorem reduce_induction {pair : α → α → α} {motive : List α → Prop}
    (hstep : ∀ level, motive level → motive (nextLevel pair level)) (level : List α) (root : α)
    (h : motive level) (hroot : reduce pair level = some root) : motive [root] := by
  induction level using reduce.induct pair with
  | case1 => simp [reduce] at hroot
  | case2 last =>
    rw [reduce] at hroot
    rwa [← Option.some.inj hroot]
  | case3 left right rest ih =>
    rw [reduce] at hroot
    exact ih (hstep _ h) hroot

theorem exists_root (pair : α → α → α) (level : List α) (h : level ≠ []) :
    ∃ root, reduce pair level = some root := by
  induction level using reduce.induct pair with
  | case1 => exact absurd rfl h
  | case2 root => exact ⟨root, by rw [reduce]⟩
  | case3 left right rest ih =>
    rw [reduce]
    exact ih (List.cons_ne_nil _ _)

/-! ## The tree of the pairings -/

/-- A binary tree with values at its leaves. -/
inductive Tree (α : Type) where
  | leaf (value : α)
  | node (left right : Tree α)

/-- The leaves. -/
def Tree.flatten : Tree α → List α
  | leaf value => [value]
  | node left right => left.flatten ++ right.flatten

/-- Every leaf is as deep. -/
def Tree.Perfect : ℕ → Tree α → Prop
  | 0, leaf _ => True
  | depth + 1, node left right => left.Perfect depth ∧ right.Perfect depth
  | _, _ => False

theorem Tree.Perfect.length {depth : ℕ} {tree : Tree α} (h : tree.Perfect depth) :
    tree.flatten.length = 2 ^ depth := by
  induction tree generalizing depth with
  | leaf value =>
    cases depth with
    | zero => rfl
    | succ depth => exact h.elim
  | node left right ihl ihr =>
    cases depth with
    | zero => exact h.elim
    | succ depth =>
      rw [flatten, List.length_append, ihl h.1, ihr h.2]
      ring

/-- **A perfect tree** is told by its leaves. -/
theorem Tree.Perfect.ext {depth depth' : ℕ} {tree tree' : Tree α} (h : tree.Perfect depth)
    (h' : tree'.Perfect depth') (hflat : tree.flatten = tree'.flatten) : tree = tree' := by
  have hdepth : depth = depth' := by
    have hlength := congrArg List.length hflat
    rw [h.length, h'.length] at hlength
    exact Nat.pow_right_injective le_rfl hlength
  subst hdepth
  induction tree generalizing depth tree' with
  | leaf value =>
    cases depth with
    | succ depth => exact h.elim
    | zero =>
      cases tree' with
      | leaf value' => exact congrArg leaf (List.singleton_inj.mp hflat)
      | node left right => exact h'.elim
  | node left right ihl ihr =>
    cases depth with
    | zero => exact h.elim
    | succ depth =>
      cases tree' with
      | leaf value' => exact h'.elim
      | node left' right' =>
        have hlength : left.flatten.length = left'.flatten.length := by
          rw [h.1.length, h'.1.length]
        obtain ⟨hleft, hright⟩ := List.append_inj hflat hlength
        rw [ihl h.1 hleft h'.1, ihr h.2 hright h'.2]

/-- The tree over a list. -/
def tree (leaves : List α) : Option (Tree α) := reduce Tree.node (leaves.map Tree.leaf)

/-- The list, completed by what stands for the missing ones of its odd levels: the last block again. -/
def completed (leaves : List α) : List α :=
  (reduce (fun left right => left ++ right) (leaves.map fun value => [value])).getD []

section Completed

variable {leaves leaves' : List α} {t t' : Tree α}

theorem exists_tree (h : leaves ≠ []) : ∃ t, tree leaves = some t :=
  exists_root _ _ (by simpa using h)

theorem completed_nil : completed ([] : List α) = [] := by
  rw [completed, List.map_nil, reduce, Option.getD_none]

/-- **The leaves of the tree** are the list, completed. -/
theorem flatten_tree (h : tree leaves = some t) : t.flatten = completed leaves := by
  have hmap : reduce (fun left right => left ++ right) ((leaves.map Tree.leaf).map Tree.flatten) =
      (reduce Tree.node (leaves.map Tree.leaf)).map Tree.flatten :=
    reduce_map (fun _ _ => rfl) _
  rw [List.map_map, ← tree, h] at hmap
  have hone : Tree.flatten ∘ Tree.leaf = fun value : α => [value] := rfl
  rw [completed, ← hone, hmap, Option.map_some, Option.getD_some]

theorem perfect_nextLevel {depth : ℕ} : ∀ {level : List (Tree α)},
    (∀ t ∈ level, t.Perfect depth) → ∀ t ∈ nextLevel Tree.node level, t.Perfect (depth + 1)
  | [], _, t, ht => by simp [nextLevel] at ht
  | [last], h, t, ht => by
    rw [nextLevel, List.mem_singleton] at ht
    exact ht ▸ ⟨h last List.mem_cons_self, h last List.mem_cons_self⟩
  | left :: right :: rest, h, t, ht => by
    rw [nextLevel, List.mem_cons] at ht
    rcases ht with rfl | ht
    · exact ⟨h left List.mem_cons_self, h right (List.mem_cons_of_mem _ List.mem_cons_self)⟩
    · exact perfect_nextLevel
        (fun t ht => h t (List.mem_cons_of_mem _ (List.mem_cons_of_mem _ ht))) t ht

/-- **The tree is perfect.** -/
theorem perfect_tree (h : tree leaves = some t) : ∃ depth, t.Perfect depth := by
  have hroot := reduce_induction
    (motive := fun level => ∃ depth, ∀ t ∈ level, Tree.Perfect depth t) ?_ _ t ?_ h
  · obtain ⟨depth, hdepth⟩ := hroot
    exact ⟨depth, hdepth t List.mem_cons_self⟩
  · rintro level ⟨depth, hdepth⟩
    exact ⟨depth + 1, perfect_nextLevel hdepth⟩
  · refine ⟨0, fun t ht => ?_⟩
    obtain ⟨value, -, rfl⟩ := List.mem_map.mp ht
    trivial

/-- **Two lists have one tree** exactly where they are completed to the same list. -/
theorem tree_eq_iff : tree leaves = tree leaves' ↔ completed leaves = completed leaves' := by
  have hsome : ∀ {leaves : List α} {t : Tree α}, tree leaves = some t → completed leaves ≠ [] := by
    intro leaves t ht hnil
    obtain ⟨depth, hdepth⟩ := perfect_tree ht
    have hlength := hdepth.length
    rw [flatten_tree ht, hnil, List.length_nil] at hlength
    exact absurd hlength.symm (pow_ne_zero _ two_ne_zero)
  have hnone : ∀ {leaves : List α}, tree leaves = none → leaves = [] := by
    intro leaves hleaves
    by_contra hne
    obtain ⟨t, ht⟩ := exists_tree hne
    rw [ht] at hleaves
    cases hleaves
  cases ht : tree leaves with
  | none =>
    obtain rfl := hnone ht
    cases ht' : tree leaves' with
    | none => exact iff_of_true rfl (by rw [hnone ht'])
    | some t' =>
      exact iff_of_false (fun h => nomatch h) fun h => hsome ht' (h.symm.trans completed_nil)
  | some t =>
    cases ht' : tree leaves' with
    | none =>
      obtain rfl := hnone ht'
      exact iff_of_false (fun h => nomatch h) fun h => hsome ht (h.trans completed_nil)
    | some t' =>
      obtain ⟨depth, hdepth⟩ := perfect_tree ht
      obtain ⟨depth', hdepth'⟩ := perfect_tree ht'
      rw [Option.some.injEq, ← flatten_tree ht, ← flatten_tree ht']
      exact ⟨congrArg Tree.flatten, hdepth.ext hdepth'⟩

theorem flatten_singletons (leaves : List α) : (leaves.map fun value => [value]).flatten = leaves := by
  rw [← List.flatMap_def]
  exact List.flatMap_singleton' leaves

theorem prefix_nextLevel : ∀ level : List (List α),
    level.flatten <+: (nextLevel (fun left right => left ++ right) level).flatten
  | [] => List.prefix_rfl
  | [last] => by
    rw [nextLevel, List.flatten_singleton, List.flatten_singleton]
    exact List.prefix_append _ _
  | left :: right :: rest => by
    rw [nextLevel, List.flatten_cons, List.flatten_cons, List.flatten_cons, ← List.append_assoc]
    exact (List.prefix_append_right_inj _).mpr (prefix_nextLevel rest)

/-- **A list stands first** in the list it is completed to. -/
theorem prefix_completed (leaves : List α) : leaves <+: completed leaves := by
  by_cases hne : leaves = []
  · rw [hne]
    exact List.nil_prefix
  · obtain ⟨root, hroot⟩ := exists_root (fun left right => left ++ right)
      (leaves.map fun value => [value]) (by simpa using hne)
    have hprefix := reduce_induction (motive := fun level => leaves <+: level.flatten)
      (fun level h => h.trans (prefix_nextLevel level)) _ root (by rw [flatten_singletons]) hroot
    rw [completed, hroot, Option.getD_some]
    rwa [List.flatten_singleton] at hprefix

/-- Lists of one length are told by what they are completed to. -/
theorem completed_inj (hlength : leaves.length = leaves'.length)
    (h : completed leaves = completed leaves') : leaves = leaves' := by
  have hprefix := prefix_completed leaves
  rw [h] at hprefix
  exact (List.prefix_of_prefix_length_le hprefix (prefix_completed leaves')
    hlength.le).eq_of_length hlength

theorem mem_nextLevel : ∀ {level : List (List α)} {x : α},
    x ∈ (nextLevel (fun left right => left ++ right) level).flatten → x ∈ level.flatten
  | [], _, h => h
  | [last], x, h => by
    rw [nextLevel, List.flatten_singleton, List.mem_append] at h
    rw [List.flatten_singleton]
    exact h.elim id id
  | left :: right :: rest, x, h => by
    rw [nextLevel, List.flatten_cons, List.mem_append, List.mem_append] at h
    rw [List.flatten_cons, List.mem_append, List.flatten_cons, List.mem_append]
    rcases h with (h | h) | h
    · exact .inl h
    · exact .inr (.inl h)
    · exact .inr (.inr (mem_nextLevel h))

/-- A list is completed by its own elements. -/
theorem mem_of_mem_completed {x : α} (h : x ∈ completed leaves) : x ∈ leaves := by
  cases hroot : reduce (fun left right => left ++ right) (leaves.map fun value => [value]) with
  | none =>
    rw [completed, hroot, Option.getD_none] at h
    cases h
  | some root =>
    have hmem := reduce_induction (motive := fun level => ∀ x ∈ level.flatten, x ∈ leaves)
      (fun level hlevel x hx => hlevel x (mem_nextLevel hx)) _ root
      (fun x hx => by rwa [flatten_singletons] at hx) hroot
    rw [completed, hroot, Option.getD_some] at h
    exact hmem x (by rwa [List.flatten_singleton])

theorem completed_map (f : α → β) (leaves : List α) :
    completed (leaves.map f) = (completed leaves).map f := by
  have hmap : reduce (fun left right => left ++ right)
      ((leaves.map fun value => [value]).map (List.map f)) =
      (reduce (fun left right => left ++ right) (leaves.map fun value => [value])).map (List.map f) :=
    reduce_map (fun _ _ => List.map_append) _
  rw [List.map_map] at hmap
  rw [completed, completed, List.map_map]
  have hone : (List.map f ∘ fun value : α => [value]) = (fun value => [value]) ∘ f := rfl
  rw [← hone, hmap]
  cases reduce (fun left right => left ++ right) (leaves.map fun value => [value]) <;> rfl

end Completed

end Veridex.Lib.Merkle
