import Mathlib

/-!
# Counting the rows of a keyed table

A table is an `AList` with values of one type. `count p` is the number of its rows that satisfy
`p`. A row that is looked up is one row of the table, so writing, rewriting and erasing it move the
count by what the row itself counts for (`count_of_lookup`, `count_insert`).
-/

namespace Veridex.Lib

variable {α β : Type*}

/-- A keyed table: no key occurs twice. -/
abbrev Table (α β : Type*) := AList fun _ : α => β

namespace Table

variable {t : Table α β} {p : β → Bool} {a : α} {b : β}

/-- The number of rows that satisfy `p`. -/
def count (p : β → Bool) (t : Table α β) : ℕ := t.entries.countP fun row => p row.2

@[simp] theorem count_empty : count p (∅ : Table α β) = 0 := rfl

variable [DecidableEq α]

/-- A looked up row and the other rows make up the table. -/
theorem perm_of_lookup (h : t.lookup a = some b) :
    t.entries.Perm (⟨a, b⟩ :: (t.erase a).entries) := by
  have hmem : a ∈ t.entries.keys := AList.mem_keys.mp (AList.lookup_isSome.mp (by simp [h]))
  obtain ⟨b', l₁, l₂, hl₁, hl, hke⟩ := List.exists_of_kerase hmem
  have hb : b' = b := by
    have hlookup : List.dlookup a t.entries = some b' := by
      rw [hl, List.dlookup_append, List.dlookup_eq_none.mpr hl₁]
      simp
    simpa [AList.lookup, hlookup] using h
  subst hb
  have herase : (t.erase a).entries = l₁ ++ l₂ := hke
  rw [herase, hl]
  exact List.perm_middle

theorem count_of_lookup (h : t.lookup a = some b) :
    count p t = count p (t.erase a) + if p b then 1 else 0 := by
  unfold count
  rw [(perm_of_lookup h).countP_eq, List.countP_cons]

theorem count_insert : count p (t.insert a b) = count p (t.erase a) + if p b then 1 else 0 := by
  unfold count
  rw [AList.entries_insert, List.countP_cons]
  rfl

/-- A fresh row adds what it counts for. -/
theorem count_insert_new (h : t.lookup a = none) :
    count p (t.insert a b) = count p t + if p b then 1 else 0 := by
  have hmem : a ∉ t := AList.lookup_eq_none.mp h
  have herase : t.erase a = t := AList.ext (List.kerase_of_notMem_keys hmem)
  rw [count_insert, herase]

theorem count_erase_le : count p (t.erase a) ≤ count p t :=
  (List.kerase_sublist a t.entries).countP_le

theorem count_pos_of_lookup (h : t.lookup a = some b) (hp : p b = true) : 0 < count p t := by
  rw [count_of_lookup h, if_pos hp]
  exact Nat.succ_pos _

/-- Two rows counted once are one row. -/
theorem eq_of_count_le_one {a' : α} {b' : β} (hcount : count p t ≤ 1) (h : t.lookup a = some b)
    (h' : t.lookup a' = some b') (hp : p b = true) (hp' : p b' = true) : a = a' := by
  by_contra hne
  have herased : (t.erase a).lookup a' = some b' := by
    rw [AList.lookup_erase_ne (Ne.symm hne), h']
  have hpos := count_pos_of_lookup herased hp'
  have hsum := count_of_lookup (p := p) h
  rw [if_pos hp] at hsum
  omega

end Table

end Veridex.Lib

/-!
## Tables written by key

A table holds its rows in the order their keys were first written. `upsert key row` puts a row in the
place of the one with its key, or at the end.

* `nodup_upserts`: no two rows have one key.
* `mem_upserts`: a row is in the table when it is the last that was written under its key.
* `upserts_same`: to write again what stands changes nothing.
-/

namespace Veridex.Lib

variable {α κ : Type*} [DecidableEq κ] {key : α → κ} {rows rows' written : List α} {row r : α}

/-- A row, put under its key. -/
def upsert (key : α → κ) (row : α) : List α → List α
  | [] => [row]
  | r :: rest => if key r = key row then row :: rest else r :: upsert key row rest

/-- Rows, put under their keys one after another. -/
def upserts (key : α → κ) (rows written : List α) : List α :=
  written.foldl (fun rows row => upsert key row rows) rows

theorem map_key_upsert : (upsert key row rows).map key =
    if key row ∈ rows.map key then rows.map key else rows.map key ++ [key row] := by
  induction rows with
  | nil => simp [upsert]
  | cons r rest ih =>
    rw [upsert]
    by_cases hkey : key r = key row
    · rw [if_pos hkey, List.map_cons, List.map_cons, hkey, if_pos List.mem_cons_self]
    · have hiff : key row ∈ key r :: rest.map key ↔ key row ∈ rest.map key :=
        List.mem_cons.trans (or_iff_right (Ne.symm hkey))
      rw [if_neg hkey, List.map_cons, List.map_cons, ih]
      simp only [hiff]
      split <;> rfl

theorem nodup_upsert (h : (rows.map key).Nodup) : ((upsert key row rows).map key).Nodup := by
  rw [map_key_upsert]
  split
  · exact h
  · next hnot => exact List.concat_eq_append ▸ List.Nodup.concat hnot h

/-- A row of the table is the one just put there, or one of another key. -/
theorem mem_upsert (h : (rows.map key).Nodup) :
    r ∈ upsert key row rows ↔ r = row ∨ r ∈ rows ∧ key r ≠ key row := by
  induction rows with
  | nil => simp [upsert]
  | cons s rest ih =>
    obtain ⟨hs, hrest⟩ := List.nodup_cons.mp h
    rw [upsert]
    by_cases hkey : key s = key row
    · rw [if_pos hkey, List.mem_cons, List.mem_cons]
      constructor
      · rintro (rfl | hr)
        · exact .inl rfl
        · refine .inr ⟨.inr hr, fun heq => hs ?_⟩
          exact List.mem_map.mpr ⟨r, hr, heq.trans hkey.symm⟩
      · rintro (rfl | ⟨rfl | hr, hne⟩)
        · exact .inl rfl
        · exact absurd hkey hne
        · exact .inr hr
    · rw [if_neg hkey, List.mem_cons, ih hrest, List.mem_cons]
      constructor
      · rintro (rfl | rfl | ⟨hr, hne⟩)
        · exact .inr ⟨.inl rfl, hkey⟩
        · exact .inl rfl
        · exact .inr ⟨.inr hr, hne⟩
      · rintro (rfl | ⟨rfl | hr, hne⟩)
        · exact .inr (.inl rfl)
        · exact .inl rfl
        · exact .inr (.inr ⟨hr, hne⟩)

theorem upserts_append (rows written written' : List α) :
    upserts key rows (written ++ written') = upserts key (upserts key rows written) written' :=
  List.foldl_append

/-- **No two rows** have one key. -/
theorem nodup_upserts (h : (rows.map key).Nodup) : ((upserts key rows written).map key).Nodup := by
  induction written generalizing rows with
  | nil => exact h
  | cons row written ih => exact ih (nodup_upsert h)

/-- **A row is in the table** when it is the last written under its key, or none was and it was there. -/
theorem mem_upserts (h : (rows.map key).Nodup) : r ∈ upserts key rows written ↔
    (written.filter (key · = key r)).getLast? = some r ∨
      (∀ row ∈ written, key row ≠ key r) ∧ r ∈ rows := by
  induction written using List.reverseRecOn with
  | nil => simp [upserts]
  | append_singleton written row ih =>
    rw [upserts_append, upserts, List.foldl_cons, List.foldl_nil, mem_upsert (nodup_upserts h), ih,
      List.filter_append]
    by_cases hkey : key row = key r
    · have hlast : [row].filter (key · = key r) = [row] := by simp [hkey]
      rw [hlast, List.getLast?_append, List.getLast?_singleton, Option.some_or, Option.some.injEq]
      constructor
      · rintro (rfl | ⟨-, hne⟩)
        · exact .inl rfl
        · exact absurd hkey.symm hne
      · rintro (rfl | ⟨hother, -⟩)
        · exact .inl rfl
        · exact absurd hkey (hother row (List.mem_append_right _ (List.mem_singleton_self row)))
    · have hnone : [row].filter (key · = key r) = [] := by simp [hkey]
      rw [hnone, List.append_nil, List.forall_mem_append, List.forall_mem_singleton]
      have hne : r ≠ row := fun heq => hkey (heq ▸ rfl)
      simp only [hne, false_or, ne_eq, Ne.symm hkey, not_false_iff, and_true, hkey]

theorem map_key_upserts (h : ∀ row ∈ written, key row ∈ rows.map key) :
    (upserts key rows written).map key = rows.map key := by
  induction written generalizing rows with
  | nil => rfl
  | cons row written ih =>
    obtain ⟨hrow, hwritten⟩ := List.forall_mem_cons.mp h
    have hkeys : (upsert key row rows).map key = rows.map key := by
      rw [map_key_upsert, if_pos hrow]
    exact (ih (hkeys ▸ hwritten)).trans hkeys

omit [DecidableEq κ] in
/-- Tables of the same keys and the same rows are one. -/
theorem eq_of_keys (hkeys : rows.map key = rows'.map key) (hnodup : (rows'.map key).Nodup)
    (h : ∀ r ∈ rows, r ∈ rows') : rows = rows' := by
  have hlength : rows.length = rows'.length := by
    rw [← List.length_map key, hkeys, List.length_map]
  refine List.ext_getElem hlength fun i hi hi' => ?_
  have hkey : key rows[i] = key rows'[i] := by
    have hget := List.getElem_of_eq hkeys (by rwa [List.length_map])
    rwa [List.getElem_map, List.getElem_map] at hget
  exact List.inj_on_of_nodup_map hnodup (h _ (List.getElem_mem hi)) (List.getElem_mem hi') hkey

/-- **To write what stands** changes nothing. -/
theorem upserts_same (h : (rows.map key).Nodup)
    (hlast : ∀ row ∈ written, ∃ r ∈ rows, (written.filter (key · = key row)).getLast? = some r) :
    upserts key rows written = rows := by
  have hthere : ∀ row ∈ written, ∃ r ∈ rows, key r = key row := by
    intro row hrow
    obtain ⟨r, hr, hget⟩ := hlast row hrow
    exact ⟨r, hr, of_decide_eq_true (List.mem_filter.mp (List.mem_of_getLast? hget)).2⟩
  refine eq_of_keys (map_key_upserts fun row hrow => ?_) h fun r hr => ?_
  · obtain ⟨r, hr, hkey⟩ := hthere row hrow
    exact List.mem_map.mpr ⟨r, hr, hkey⟩
  · rcases (mem_upserts h).mp hr with hget | ⟨-, hrows⟩
    · have hwritten := (List.mem_filter.mp (List.mem_of_getLast? hget)).1
      obtain ⟨r', hr', hget'⟩ := hlast r hwritten
      exact Option.some.inj (hget.symm.trans hget') ▸ hr'
    · exact hrows

end Veridex.Lib
