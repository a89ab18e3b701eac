import Veridex.Lib.Keyed

/-!
# Lists grouped by a key

Elements are filed one by one under their keys; a key that is met first opens a group at the end
(`file`, `grouped`).

* `mem_grouped`: a group holds all the elements of its key, in their order.
* `nodup_grouped`: no two groups share a key.
* `grouped_perm`: the groups together are the list.
-/

namespace Veridex.Lib

variable {α κ : Type*} [DecidableEq κ]

/-- One more element under a key. -/
def file (k : κ) (a : α) : List (κ × List α) → List (κ × List α)
  | [] => [(k, [a])]
  | (k', as) :: groups => if k' = k then (k', as ++ [a]) :: groups else (k', as) :: file k a groups

/-- The elements under their keys. -/
def grouped (key : α → κ) (l : List α) : List (κ × List α) :=
  l.foldl (fun groups a => file (key a) a groups) []

variable {key : α → κ} {l as : List α} {groups : List (κ × List α)} {k k' : κ} {a : α}

theorem map_fst_file (k : κ) (a : α) (groups : List (κ × List α)) :
    (file k a groups).map Prod.fst =
      if k ∈ groups.map Prod.fst then groups.map Prod.fst else groups.map Prod.fst ++ [k] := by
  induction groups with
  | nil => rfl
  | cons group groups ih =>
    obtain ⟨k', as⟩ := group
    by_cases heq : k' = k
    · simp [file, heq]
    · rw [file, if_neg heq, List.map_cons, ih]
      by_cases hmem : k ∈ groups.map Prod.fst
      · rw [if_pos hmem, List.map_cons, if_pos (List.mem_cons_of_mem _ hmem)]
      · rw [if_neg hmem, List.map_cons, if_neg, List.cons_append]
        rw [List.mem_cons]
        exact not_or.mpr ⟨fun h => heq h.symm, hmem⟩

/-- The group of a key after one more element. -/
theorem lookup_file [BEq κ] [LawfulBEq κ] (k k' : κ) (a : α) (groups : List (κ × List α)) :
    ((file k a groups).lookup k').getD [] =
      (groups.lookup k').getD [] ++ if k' = k then [a] else [] := by
  induction groups with
  | nil =>
    by_cases heq : k' = k
    · simp [file, heq]
    · simp [file, heq, List.lookup, beq_false_of_ne heq]
  | cons group groups ih =>
    obtain ⟨j, as⟩ := group
    by_cases hj : j = k
    · subst hj
      rw [file, if_pos rfl]
      by_cases heq : k' = j
      · simp [heq]
      · simp [List.lookup, beq_false_of_ne heq, heq]
    · rw [file, if_neg hj]
      by_cases heq : k' = j
      · subst heq
        simp [hj]
      · simp only [List.lookup, beq_false_of_ne heq]
        exact ih

theorem grouped_concat (l : List α) (a : α) :
    grouped key (l ++ [a]) = file (key a) a (grouped key l) := by
  simp [grouped]

theorem nodup_grouped (l : List α) : ((grouped key l).map Prod.fst).Nodup := by
  induction l using List.reverseRecOn with
  | nil => exact List.nodup_nil
  | append_singleton l a ih =>
    rw [grouped_concat, map_fst_file]
    by_cases hmem : key a ∈ (grouped key l).map Prod.fst
    · rwa [if_pos hmem]
    · rw [if_neg hmem]
      exact ih.append (List.nodup_singleton _) (by simpa using hmem)

/-- **A group holds all the elements of its key**, in their order. -/
theorem lookup_grouped [BEq κ] [LawfulBEq κ] (l : List α) (k : κ) :
    ((grouped key l).lookup k).getD [] = l.filter (key · = k) := by
  induction l using List.reverseRecOn with
  | nil => rfl
  | append_singleton l a ih =>
    rw [grouped_concat, lookup_file, ih, List.filter_append]
    by_cases heq : k = key a
    · simp [heq]
    · simp [heq, Ne.symm heq]

theorem mem_grouped (h : (k, as) ∈ grouped key l) : as = l.filter (key · = k) := by
  rw [← lookup_grouped, lookup_of_mem (nodup_grouped l) h, Option.getD_some]

theorem file_perm (k : κ) (a : α) (groups : List (κ × List α)) :
    ((file k a groups).flatMap Prod.snd).Perm (a :: groups.flatMap Prod.snd) := by
  induction groups with
  | nil => exact .refl _
  | cons group groups ih =>
    obtain ⟨k', as⟩ := group
    by_cases heq : k' = k
    · rw [file, if_pos heq, List.flatMap_cons, List.flatMap_cons, List.append_assoc]
      exact List.perm_middle
    · rw [file, if_neg heq, List.flatMap_cons, List.flatMap_cons]
      exact (ih.append_left as).trans List.perm_middle

theorem file_ne_nil (h : ∀ group ∈ groups, group.2 ≠ []) : ∀ group ∈ file k a groups, group.2 ≠ [] := by
  induction groups with
  | nil =>
    intro group hgroup
    rw [file, List.mem_singleton] at hgroup
    exact hgroup ▸ List.cons_ne_nil a []
  | cons first groups ih =>
    obtain ⟨hfirst, hrest⟩ := List.forall_mem_cons.mp h
    rw [file]
    split_ifs
    · exact List.forall_mem_cons.mpr ⟨List.append_ne_nil_of_right_ne_nil _ (List.cons_ne_nil a []), hrest⟩
    · exact List.forall_mem_cons.mpr ⟨hfirst, ih hrest⟩

/-- No group is empty. -/
theorem grouped_ne_nil (l : List α) : ∀ group ∈ grouped key l, group.2 ≠ [] := by
  induction l using List.reverseRecOn with
  | nil => exact fun group hgroup => absurd hgroup List.not_mem_nil
  | append_singleton l a ih =>
    rw [grouped_concat]
    exact file_ne_nil ih

/-- Elements of one key are one group. -/
theorem grouped_of_one (hne : l ≠ []) (h : ∀ a ∈ l, key a = k) : grouped key l = [(k, l)] := by
  induction l using List.reverseRecOn with
  | nil => exact absurd rfl hne
  | append_singleton l a ih =>
    have ha : key a = k := h a (List.mem_append_right _ (List.mem_singleton_self a))
    rw [grouped_concat, ha]
    by_cases hl : l = []
    · subst hl
      rfl
    · rw [ih hl fun b hb => h b (List.mem_append_left _ hb), file, if_pos rfl]

/-- **The groups together** are the list. -/
theorem grouped_perm (l : List α) : ((grouped key l).flatMap Prod.snd).Perm l := by
  induction l using List.reverseRecOn with
  | nil => exact .refl _
  | append_singleton l a ih =>
    rw [grouped_concat]
    exact (file_perm _ a _).trans ((ih.cons a).trans (List.perm_append_singleton a l).symm)

end Veridex.Lib
