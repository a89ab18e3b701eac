import Veridex.Lib.Merkle
import Veridex.Verifier.Manifest

/-!
# What a domain root binds (`chain/merkle.py`)

A root repeats the last node of an odd level, so it binds its records up to that: `domainRoot_iff`. Of
lists of one length it binds the records themselves. A list that already ends in the block another one
is completed by has the root of that one (`domainRoot_repeated`).

No two texts that the roots hash share a digest; a digest has 64 characters; and no record is written as
two digests.
-/

namespace Veridex.Verifier

open Veridex.Py Veridex.Lib Veridex.Runtime

variable {format : Json.FloatFormat PyFloat} {sha256 : List Char → String}

/-! ## The texts that are hashed -/

/-- The texts that a level hashes. -/
def levelTexts : List String → List (List Char)
  | left :: right :: rest => (left ++ right).toList :: levelTexts rest
  | [last] => [(last ++ last).toList]
  | [] => []

/-- The texts that `merkle_root` hashes. -/
def rootTexts (sha256 : List Char → String) : List String → List (List Char)
  | [] => [[]]
  | [_] => []
  | left :: right :: rest => levelTexts (left :: right :: rest) ++
      rootTexts sha256 (nextLevel sha256 (left :: right :: rest))
termination_by level => level.length
decreasing_by
  rw [length_nextLevel]
  simp only [List.length_cons]
  omega

/-- The texts that `domain_root` hashes. -/
def hashedTexts (format : Json.FloatFormat PyFloat) (sha256 : List Char → String)
    (records : List Decoded) : List (List Char) :=
  records.map (serializePayload format) ++ rootTexts sha256 (records.map (leafHash format sha256))

/-- What the digests are taken to be, of the records of two lists. -/
structure Digests (format : Json.FloatFormat PyFloat) (sha256 : List Char → String)
    (records records' : List Decoded) : Prop where
  length : ∀ text, (sha256 text).length = 64
  free : Set.InjOn sha256
    {text | text ∈ hashedTexts format sha256 records ∨ text ∈ hashedTexts format sha256 records'}
  apart : ∀ record ∈ records ++ records', ∀ left right,
    serializePayload format record ≠ (sha256 left ++ sha256 right).toList

/-! ## The tree of a root -/

theorem nextLevel_eq : ∀ level : List String,
    nextLevel sha256 level = Merkle.nextLevel (pairHash sha256) level
  | [] => rfl
  | [_] => rfl
  | _ :: _ :: rest => congrArg _ (nextLevel_eq rest)

theorem merkleRoot_eq (leaves : List String) :
    merkleRoot sha256 leaves = (Merkle.reduce (pairHash sha256) leaves).getD (sha256 []) := by
  induction leaves using merkleRoot.induct sha256 with
  | case1 => rw [merkleRoot, Merkle.reduce, Option.getD_none]
  | case2 root => rw [merkleRoot, Merkle.reduce, Option.getD_some]
  | case3 left right rest ih => rw [merkleRoot, ih, Merkle.reduce, nextLevel_eq]

/-- The digest of a tree of texts. -/
def treeHash (sha256 : List Char → String) : Merkle.Tree (List Char) → String
  | .leaf text => sha256 text
  | .node left right => pairHash sha256 (treeHash sha256 left) (treeHash sha256 right)

/-- The texts that the digest of a tree hashes. -/
def treeTexts (sha256 : List Char → String) : Merkle.Tree (List Char) → List (List Char)
  | .leaf text => [text]
  | .node left right => (treeHash sha256 left ++ treeHash sha256 right).toList ::
      (treeTexts sha256 left ++ treeTexts sha256 right)

/-- The text whose digest a tree's is. -/
def headText (sha256 : List Char → String) : Merkle.Tree (List Char) → List Char
  | .leaf text => text
  | .node left right => (treeHash sha256 left ++ treeHash sha256 right).toList

theorem treeHash_eq (t : Merkle.Tree (List Char)) :
    treeHash sha256 t = sha256 (headText sha256 t) := by
  cases t <;> rfl

theorem headText_mem (t : Merkle.Tree (List Char)) : headText sha256 t ∈ treeTexts sha256 t := by
  cases t <;> exact List.mem_cons_self

/-- **A root** is the digest of the tree over the records' texts. -/
theorem domainRoot_eq (records : List Decoded) :
    domainRoot format sha256 records = ((Merkle.tree (records.map (serializePayload format))).map
      (treeHash sha256)).getD (sha256 []) := by
  have hmap : Merkle.reduce (pairHash sha256)
      (((records.map (serializePayload format)).map Merkle.Tree.leaf).map (treeHash sha256)) =
      (Merkle.tree (records.map (serializePayload format))).map (treeHash sha256) :=
    Merkle.reduce_map (fun _ _ => rfl) _
  rw [List.map_map, List.map_map] at hmap
  rw [domainRoot, merkleRoot_eq, ← hmap]
  rfl

/-- The texts of a level's trees are those of the level below, and the ones the level hashes. -/
theorem treeTexts_nextLevel {texts : Set (List Char)} : ∀ {level : List (Merkle.Tree (List Char))},
    (∀ t ∈ level, ∀ text ∈ treeTexts sha256 t, text ∈ texts) →
    (∀ text ∈ levelTexts (level.map (treeHash sha256)), text ∈ texts) →
    ∀ t ∈ Merkle.nextLevel Merkle.Tree.node level, ∀ text ∈ treeTexts sha256 t, text ∈ texts
  | [], _, _, t, ht => by simp [Merkle.nextLevel] at ht
  | [last], hbelow, hlevel, t, ht => by
    rw [Merkle.nextLevel, List.mem_singleton] at ht
    subst ht
    intro text htext
    rcases List.mem_cons.mp htext with rfl | htext
    · exact hlevel _ List.mem_cons_self
    · exact hbelow last List.mem_cons_self text ((List.mem_append.mp htext).elim id id)
  | left :: right :: rest, hbelow, hlevel, t, ht => by
    have hright : right ∈ left :: right :: rest := List.mem_cons_of_mem _ List.mem_cons_self
    rw [Merkle.nextLevel, List.mem_cons] at ht
    rcases ht with rfl | ht
    · intro text htext
      rcases List.mem_cons.mp htext with rfl | htext
      · exact hlevel _ List.mem_cons_self
      · rcases List.mem_append.mp htext with htext | htext
        · exact hbelow left List.mem_cons_self text htext
        · exact hbelow right hright text htext
    · exact treeTexts_nextLevel
        (fun t ht => hbelow t (List.mem_cons_of_mem _ (List.mem_cons_of_mem _ ht)))
        (fun text htext => hlevel text (List.mem_cons_of_mem _ htext)) t ht

/-- **The texts of a root's tree** are texts that the root hashes. -/
theorem treeTexts_reduce (texts : Set (List Char)) {level : List (Merkle.Tree (List Char))}
    {t : Merkle.Tree (List Char)} (hbelow : ∀ t ∈ level, ∀ text ∈ treeTexts sha256 t, text ∈ texts)
    (hroot : ∀ text ∈ rootTexts sha256 (level.map (treeHash sha256)), text ∈ texts)
    (h : Merkle.reduce Merkle.Tree.node level = some t) :
    ∀ text ∈ treeTexts sha256 t, text ∈ texts := by
  induction level using Merkle.reduce.induct Merkle.Tree.node with
  | case1 => simp [Merkle.reduce] at h
  | case2 root =>
    rw [Merkle.reduce] at h
    exact Option.some.inj h ▸ hbelow root List.mem_cons_self
  | case3 left right rest ih =>
    rw [Merkle.reduce] at h
    have hnext : Merkle.nextLevel (pairHash sha256)
        ((left :: right :: rest).map (treeHash sha256)) =
        (Merkle.nextLevel Merkle.Tree.node (left :: right :: rest)).map (treeHash sha256) :=
      Merkle.nextLevel_map (fun _ _ => rfl) _
    rw [List.map_cons, List.map_cons, rootTexts, ← List.map_cons, ← List.map_cons, nextLevel_eq,
      hnext] at hroot
    refine ih ?_ ?_ h
    · exact treeTexts_nextLevel hbelow fun text htext => hroot text (List.mem_append_left _ htext)
    · exact fun text htext => hroot text (List.mem_append_right _ htext)

theorem treeTexts_tree {records : List Decoded} {t : Merkle.Tree (List Char)}
    (h : Merkle.tree (records.map (serializePayload format)) = some t) :
    ∀ text ∈ treeTexts sha256 t, text ∈ hashedTexts format sha256 records := by
  refine treeTexts_reduce {text | text ∈ hashedTexts format sha256 records} ?_ ?_ h
  · intro t ht text htext
    obtain ⟨leaf, hleaf, rfl⟩ := List.mem_map.mp ht
    rw [treeTexts, List.mem_singleton] at htext
    exact List.mem_append_left _ (htext ▸ hleaf)
  · intro text htext
    rw [List.map_map, List.map_map] at htext
    exact List.mem_append_right _ htext

/-! ## Equal roots -/

section Injective

variable {texts : Set (List Char)} {t t' : Merkle.Tree (List Char)}

theorem headText_of_treeHash (hfree : Set.InjOn sha256 texts)
    (ht : ∀ text ∈ treeTexts sha256 t, text ∈ texts) (ht' : ∀ text ∈ treeTexts sha256 t', text ∈ texts)
    (h : treeHash sha256 t = treeHash sha256 t') : headText sha256 t = headText sha256 t' := by
  rw [treeHash_eq, treeHash_eq] at h
  exact hfree (ht _ (headText_mem t)) (ht' _ (headText_mem t')) h

/-- Two digests of one length are told by the text they make. -/
theorem treeHash_of_append (hlength : ∀ text, (sha256 text).length = 64)
    {left right left' right' : Merkle.Tree (List Char)}
    (h : headText sha256 (.node left right) = headText sha256 (.node left' right')) :
    treeHash sha256 left = treeHash sha256 left' ∧ treeHash sha256 right = treeHash sha256 right' := by
  rw [headText, headText, String.toList_append, String.toList_append] at h
  have hlen : (treeHash sha256 left).toList.length = (treeHash sha256 left').toList.length := by
    rw [treeHash_eq, treeHash_eq, String.length_toList, String.length_toList, hlength, hlength]
  obtain ⟨hl, hr⟩ := List.append_inj h hlen
  exact ⟨String.toList_inj.mp hl, String.toList_inj.mp hr⟩

theorem headText_node (left right : Merkle.Tree (List Char)) :
    headText sha256 (.node left right) =
      (sha256 (headText sha256 left) ++ sha256 (headText sha256 right)).toList := by
  rw [headText, treeHash_eq, treeHash_eq]

/-- **The digest of a tree** tells the tree. -/
theorem treeHash_inj (hlength : ∀ text, (sha256 text).length = 64) (hfree : Set.InjOn sha256 texts)
    (ht : ∀ text ∈ treeTexts sha256 t, text ∈ texts) (ht' : ∀ text ∈ treeTexts sha256 t', text ∈ texts)
    (hleaf : ∀ text ∈ t.flatten, ∀ left right, text ≠ (sha256 left ++ sha256 right).toList)
    (hleaf' : ∀ text ∈ t'.flatten, ∀ left right, text ≠ (sha256 left ++ sha256 right).toList)
    (h : treeHash sha256 t = treeHash sha256 t') : t = t' := by
  induction t generalizing t' with
  | leaf text =>
    have hhead := headText_of_treeHash hfree ht ht' h
    cases t' with
    | leaf text' => exact congrArg Merkle.Tree.leaf hhead
    | node left right =>
      exact absurd (hhead.trans (headText_node left right)) (hleaf text List.mem_cons_self _ _)
  | node left right ihl ihr =>
    have hhead := headText_of_treeHash hfree ht ht' h
    cases t' with
    | leaf text =>
      exact absurd (hhead.symm.trans (headText_node left right)) (hleaf' text List.mem_cons_self _ _)
    | node left' right' =>
      obtain ⟨hl, hr⟩ := treeHash_of_append hlength hhead
      have hinto : ∀ {l r : Merkle.Tree (List Char)} {text},
          text ∈ treeTexts sha256 l ∨ text ∈ treeTexts sha256 r →
            text ∈ treeTexts sha256 (.node l r) :=
        fun htext => List.mem_cons_of_mem _ (List.mem_append.mpr htext)
      have hleft : left = left' :=
        ihl (fun text htext => ht text (hinto (.inl htext)))
          (fun text htext => ht' text (hinto (.inl htext)))
          (fun text htext => hleaf text (List.mem_append_left _ htext))
          (fun text htext => hleaf' text (List.mem_append_left _ htext)) hl
      have hright : right = right' :=
        ihr (fun text htext => ht text (hinto (.inr htext)))
          (fun text htext => ht' text (hinto (.inr htext)))
          (fun text htext => hleaf text (List.mem_append_right _ htext))
          (fun text htext => hleaf' text (List.mem_append_right _ htext)) hr
      rw [hleft, hright]

end Injective

theorem completed_subset {records : List Decoded} {t : Merkle.Tree (List Char)}
    (h : Merkle.tree (records.map (serializePayload format)) = some t) {text : List Char}
    (htext : text ∈ t.flatten) : ∃ record ∈ records, serializePayload format record = text := by
  rw [Merkle.flatten_tree h, Merkle.completed_map] at htext
  obtain ⟨record, hrecord, heq⟩ := List.mem_map.mp htext
  exact ⟨record, Merkle.mem_of_mem_completed hrecord, heq⟩

theorem serializePayload_ne_nil (format : Json.FloatFormat PyFloat) (record : Decoded) :
    serializePayload format record ≠ [] := by
  intro hnil
  have hloads : Json.loads format (serializePayload format record) = some (Json.sorted record) :=
    Json.loads_dumps format record
  rw [hnil] at hloads
  cases hloads

/-- The text that a root is the digest of: no text for no records, and no empty one for some. -/
theorem headText_ne_nil (hlength : ∀ text, (sha256 text).length = 64) {records : List Decoded}
    {t : Merkle.Tree (List Char)} (h : Merkle.tree (records.map (serializePayload format)) = some t) :
    headText sha256 t ≠ [] := by
  cases t with
  | leaf text =>
    obtain ⟨record, -, heq⟩ := completed_subset h List.mem_cons_self
    rw [headText, ← heq]
    exact serializePayload_ne_nil format record
  | node left right =>
    intro hnil
    have hlen := congrArg List.length hnil
    rw [headText, String.toList_append, List.length_append, treeHash_eq, String.length_toList, hlength]
      at hlen
    simp at hlen

section Binding

variable {records records' : List Decoded}

theorem empty_mem_hashedTexts : [] ∈ hashedTexts format sha256 [] := by
  rw [hashedTexts, List.map_nil, List.map_nil, List.nil_append, rootTexts]
  exact List.mem_cons_self

/-- The root of some records is not the empty root. -/
theorem root_ne_empty (h : Digests format sha256 records []) {t : Merkle.Tree (List Char)}
    (ht : Merkle.tree (records.map (serializePayload format)) = some t) :
    treeHash sha256 t ≠ sha256 [] := by
  rw [treeHash_eq]
  intro heq
  exact headText_ne_nil h.length ht
    (h.free (.inl (treeTexts_tree ht _ (headText_mem t))) (.inr empty_mem_hashedTexts) heq)

theorem Digests.symm (h : Digests format sha256 records records') :
    Digests format sha256 records' records where
  length := h.length
  free := h.free.mono fun _ htext => htext.symm
  apart record hrecord := h.apart record (List.mem_append.mpr (List.mem_append.mp hrecord).symm)

theorem tree_of_root (h : Digests format sha256 records records')
    (hroot : domainRoot format sha256 records = domainRoot format sha256 records') :
    Merkle.tree (records.map (serializePayload format)) =
      Merkle.tree (records'.map (serializePayload format)) := by
  have hempty : ∀ {records : List Decoded},
      Merkle.tree (records.map (serializePayload format)) = none → records = [] := by
    intro records hnone
    by_contra hne
    have hne' : records.map (serializePayload format) ≠ [] := by simpa using hne
    obtain ⟨t, ht⟩ := Merkle.exists_tree hne'
    rw [ht] at hnone
    cases hnone
  rw [domainRoot_eq, domainRoot_eq] at hroot
  cases ht : Merkle.tree (records.map (serializePayload format)) with
  | none =>
    cases ht' : Merkle.tree (records'.map (serializePayload format)) with
    | none => rfl
    | some t' =>
      rw [ht, ht'] at hroot
      obtain rfl := hempty ht
      exact absurd hroot.symm (root_ne_empty h.symm ht')
  | some t =>
    cases ht' : Merkle.tree (records'.map (serializePayload format)) with
    | none =>
      rw [ht, ht'] at hroot
      obtain rfl := hempty ht'
      exact absurd hroot (root_ne_empty h ht)
    | some t' =>
      rw [ht, ht'] at hroot
      refine congrArg some (treeHash_inj h.length h.free ?_ ?_ ?_ ?_ hroot)
      · exact fun text htext => .inl (treeTexts_tree ht text htext)
      · exact fun text htext => .inr (treeTexts_tree ht' text htext)
      · intro text htext
        obtain ⟨record, hrecord, rfl⟩ := completed_subset ht htext
        exact h.apart record (List.mem_append_left _ hrecord)
      · intro text htext
        obtain ⟨record, hrecord, rfl⟩ := completed_subset ht' htext
        exact h.apart record (List.mem_append_right _ hrecord)

theorem map_dumps_iff (format : Json.FloatFormat PyFloat) {records records' : List Decoded} :
    records.map (serializePayload format) = records'.map (serializePayload format) ↔
      records.map Json.sorted = records'.map Json.sorted := by
  have hkey : ∀ {j k : Decoded},
      serializePayload format j = serializePayload format k ↔ Json.sorted j = Json.sorted k :=
    Json.dumps_inj format
  have hmap : ∀ {γ : Type} (f : Decoded → γ), records.map f = records'.map f ↔
      List.Forall₂ (fun record record' => f record = f record') records records' := by
    intro γ f
    rw [← List.forall₂_eq_eq_eq, List.forall₂_map_left_iff, List.forall₂_map_right_iff]
  rw [hmap, hmap]
  exact ⟨fun h => h.imp fun _ _ => hkey.mp, fun h => h.imp fun _ _ => hkey.mpr⟩

/-- **A domain root binds its records**, completed: two roots are equal exactly where the lists are
completed to the same one, up to the order of their keys. Lists of one length are the same then. -/
theorem domainRoot_iff (h : Digests format sha256 records records') :
    (domainRoot format sha256 records = domainRoot format sha256 records' ↔
        Merkle.completed (records.map Json.sorted) = Merkle.completed (records'.map Json.sorted)) ∧
      (records.length = records'.length →
        domainRoot format sha256 records = domainRoot format sha256 records' →
          records.map Json.sorted = records'.map Json.sorted) := by
  have hiff : domainRoot format sha256 records = domainRoot format sha256 records' ↔
      Merkle.completed (records.map Json.sorted) = Merkle.completed (records'.map Json.sorted) := by
    rw [Merkle.completed_map, Merkle.completed_map, ← map_dumps_iff format,
      ← Merkle.completed_map, ← Merkle.completed_map, ← Merkle.tree_eq_iff]
    constructor
    · exact tree_of_root h
    · intro htree
      rw [domainRoot_eq, domainRoot_eq, htree]
  refine ⟨hiff, fun hlength hroot => ?_⟩
  exact Merkle.completed_inj (by rw [List.length_map, List.length_map, hlength]) (hiff.mp hroot)

end Binding

/-! ## A block that is repeated -/

section Repeated

/-- A record with a number. -/
def numbered (n : ℤ) : Decoded := .obj [("seq", .int n)]

/-- Three records. -/
def three : List Decoded := [numbered 0, numbered 1, numbered 2]

/-- The same, the last one again. -/
def threeAgain : List Decoded := [numbered 0, numbered 1, numbered 2, numbered 2]

/-- A digest of a place. -/
def placeDigest (place : ℕ) : List Char := List.replicate 63 '0' ++ [Char.ofNat (97 + place)]

/-- The texts that both lists hash. -/
def threeTexts : List (List Char) :=
  [[], serializePayload ratioFormat (numbered 0), serializePayload ratioFormat (numbered 1),
    serializePayload ratioFormat (numbered 2), placeDigest 1 ++ placeDigest 2,
    placeDigest 3 ++ placeDigest 3, placeDigest 4 ++ placeDigest 5]

/-- The digest of a text: that of its place. -/
def byPlace (text : List Char) : String := String.ofList (placeDigest (threeTexts.idxOf text))

theorem placeDigest_head (place : ℕ) (rest : List Char) :
    (placeDigest place ++ rest).head? = some '0' := by
  rw [placeDigest, List.replicate_succ, List.cons_append, List.cons_append, List.head?_cons]

theorem numbered_head (n : ℤ) : (serializePayload ratioFormat (numbered n)).head? = some '{' := by
  obtain ⟨cs, hcs⟩ := Json.dumps_obj ratioFormat [("seq", .int n)]
  rw [serializePayload, numbered, hcs, List.head?_cons]

theorem numbered_ne_digests (n : ℤ) (place : ℕ) (rest : List Char) :
    serializePayload ratioFormat (numbered n) ≠ placeDigest place ++ rest := by
  intro heq
  have hhead := numbered_head n
  rw [heq, placeDigest_head] at hhead
  exact absurd hhead (by decide)

theorem numbered_inj {m n : ℤ} (h : serializePayload ratioFormat (numbered m) =
    serializePayload ratioFormat (numbered n)) : m = n := by
  have hsorted : Json.sorted (numbered m) = Json.sorted (numbered n) := (Json.dumps_inj _).mp h
  simpa [numbered, Json.sorted, Json.sortedFields, Json.insertField] using hsorted

theorem nodup_threeTexts : threeTexts.Nodup := by
  have hdigests : [placeDigest 1 ++ placeDigest 2, placeDigest 3 ++ placeDigest 3,
      placeDigest 4 ++ placeDigest 5].Nodup := by decide
  have hempty : ∀ text ∈ [placeDigest 1 ++ placeDigest 2, placeDigest 3 ++ placeDigest 3,
      placeDigest 4 ++ placeDigest 5], [] ≠ text := by decide
  have hne : ∀ {m n : ℤ}, m ≠ n → serializePayload ratioFormat (numbered m) ≠
      serializePayload ratioFormat (numbered n) := fun hmn h => hmn (numbered_inj h)
  have hnil := fun n => (serializePayload_ne_nil ratioFormat (numbered n)).symm
  simp only [threeTexts, List.nodup_cons, List.mem_cons, List.not_mem_nil, not_or, or_false,
    not_false_eq_true, List.nodup_nil, and_true] at hdigests ⊢
  simp only [List.mem_cons, List.not_mem_nil, or_false, forall_eq_or_imp, forall_eq] at hempty
  refine ⟨⟨hnil 0, hnil 1, hnil 2, hempty⟩, ⟨hne (by decide), hne (by decide), ?_⟩,
    ⟨hne (by decide), ?_⟩, ?_, hdigests⟩ <;>
    exact ⟨numbered_ne_digests _ _ _, numbered_ne_digests _ _ _, numbered_ne_digests _ _ _⟩

theorem byPlace_getElem {place : ℕ} (h : place < threeTexts.length) :
    byPlace threeTexts[place] = String.ofList (placeDigest place) := by
  rw [byPlace, nodup_threeTexts.idxOf_getElem]

theorem leafHash_numbered {n : ℤ} {place : ℕ} (h : place < threeTexts.length)
    (htext : threeTexts[place] = serializePayload ratioFormat (numbered n)) :
    leafHash ratioFormat byPlace (numbered n) = String.ofList (placeDigest place) := by
  rw [leafHash, ← htext, byPlace_getElem]

theorem pairHash_places {left right place : ℕ} (h : place < threeTexts.length)
    (htext : threeTexts[place] = placeDigest left ++ placeDigest right) :
    pairHash byPlace (String.ofList (placeDigest left)) (String.ofList (placeDigest right)) =
      String.ofList (placeDigest place) := by
  rw [pairHash, String.toList_append, String.toList_ofList, String.toList_ofList, ← htext,
    byPlace_getElem]

theorem injOn_byPlace : Set.InjOn byPlace {text | text ∈ threeTexts} := by
  intro text htext text' htext' heq
  have hplace : ∀ i < 7, ∀ j < 7, placeDigest i = placeDigest j → i = j := by decide
  have hidx := hplace _ (List.idxOf_lt_length_of_mem htext) _ (List.idxOf_lt_length_of_mem htext')
    (String.ofList_injective heq)
  exact (List.idxOf_inj htext).mp hidx

theorem leaves_three : three.map (leafHash ratioFormat byPlace) =
    [String.ofList (placeDigest 1), String.ofList (placeDigest 2), String.ofList (placeDigest 3)] := by
  rw [three, List.map_cons, List.map_cons, List.map_singleton,
    leafHash_numbered (show 1 < threeTexts.length by decide) rfl,
    leafHash_numbered (show 2 < threeTexts.length by decide) rfl,
    leafHash_numbered (show 3 < threeTexts.length by decide) rfl]

theorem leaves_threeAgain : threeAgain.map (leafHash ratioFormat byPlace) =
    [String.ofList (placeDigest 1), String.ofList (placeDigest 2), String.ofList (placeDigest 3),
      String.ofList (placeDigest 3)] := by
  rw [threeAgain, List.map_cons, List.map_cons, List.map_cons, List.map_singleton,
    leafHash_numbered (show 1 < threeTexts.length by decide) rfl,
    leafHash_numbered (show 2 < threeTexts.length by decide) rfl,
    leafHash_numbered (show 3 < threeTexts.length by decide) rfl]

theorem pairs_three :
    pairHash byPlace (String.ofList (placeDigest 1)) (String.ofList (placeDigest 2)) =
        String.ofList (placeDigest 4) ∧
      pairHash byPlace (String.ofList (placeDigest 3)) (String.ofList (placeDigest 3)) =
        String.ofList (placeDigest 5) :=
  ⟨pairHash_places (by decide) rfl, pairHash_places (by decide) rfl⟩

theorem rootTexts_three : rootTexts byPlace (three.map (leafHash ratioFormat byPlace)) =
      [placeDigest 1 ++ placeDigest 2, placeDigest 3 ++ placeDigest 3, placeDigest 4 ++ placeDigest 5] ∧
    rootTexts byPlace (threeAgain.map (leafHash ratioFormat byPlace)) =
      [placeDigest 1 ++ placeDigest 2, placeDigest 3 ++ placeDigest 3,
        placeDigest 4 ++ placeDigest 5] := by
  rw [leaves_three, leaves_threeAgain]
  simp only [rootTexts, levelTexts, nextLevel, pairs_three, String.toList_append,
    String.toList_ofList, List.cons_append, List.nil_append, List.append_nil, and_self]

theorem digests_three : Digests ratioFormat byPlace three threeAgain where
  length text := by
    rw [byPlace, ← String.length_toList, String.toList_ofList, placeDigest, List.length_append,
      List.length_replicate, List.length_singleton]
  free := by
    refine injOn_byPlace.mono ?_
    rintro text (htext | htext)
    · rw [hashedTexts, rootTexts_three.1] at htext
      exact List.mem_cons_of_mem _ htext
    · rw [hashedTexts, rootTexts_three.2] at htext
      -- the last text of a record stands twice
      simp only [threeAgain, List.map_cons, List.map_nil, List.mem_append, List.mem_cons,
        List.not_mem_nil, or_false] at htext
      refine List.mem_cons_of_mem _ ?_
      simp only [List.mem_cons, List.not_mem_nil, or_false]
      tauto
  apart := by
    have hrecords : ∀ record ∈ three ++ threeAgain, ∃ n, record = numbered n := by
      intro record hrecord
      simp only [three, threeAgain, List.cons_append, List.nil_append, List.mem_cons,
        List.not_mem_nil, or_false] at hrecord
      rcases hrecord with rfl | rfl | rfl | rfl | rfl | rfl | rfl <;> exact ⟨_, rfl⟩
    intro record hrecord left right
    obtain ⟨n, rfl⟩ := hrecords record hrecord
    rw [byPlace, byPlace, String.toList_append, String.toList_ofList]
    exact numbered_ne_digests n _ _

/-- A last record that an odd list repeats is under its root. -/
theorem domainRoot_iff_three :
    domainRoot ratioFormat byPlace three = domainRoot ratioFormat byPlace threeAgain := by
  refine (domainRoot_iff digests_three).1.mpr ?_
  simp only [three, threeAgain, List.map_cons, List.map_nil, Merkle.completed, Merkle.reduce,
    Merkle.nextLevel]

/-- **A record can be repeated** under a root: three records and four have one. -/
theorem domainRoot_repeated : Digests ratioFormat byPlace three threeAgain ∧
    domainRoot ratioFormat byPlace three = domainRoot ratioFormat byPlace threeAgain ∧
      three ≠ threeAgain := by
  refine ⟨digests_three, ?_, fun h => absurd (congrArg List.length h) (by decide)⟩
  rw [domainRoot, domainRoot, leaves_three, leaves_threeAgain]
  simp only [merkleRoot, nextLevel]

end Repeated

end Veridex.Verifier
