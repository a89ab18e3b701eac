import Veridex.Lib.Json.RoundTrip

/-!
# JSON text with blanks after the separators

`spaced` is the text `json.dumps` writes by default: a blank after each comma and each colon, the
fields in the order they are in, the escapes of `render`.

* `loads_spaced`: a value no dictionary of which has a key twice reads back from its text.
* `distinct_of_loads`: what `loads` gives is such a value.
* `spaced_printable`: a text is printable ASCII, so it holds no line break.
-/

namespace Veridex.Lib

namespace Json

variable {F : Type}

/-! ## What is read is distinct -/

/-- Everything a reader reads has a property. -/
def Yields {α : Type} (p : α → Prop) (read : Reader α) : Prop :=
  ∀ s a t, read s = some (a, t) → p a

section Yields

variable {α β : Type} {p : α → Prop} {q : β → Prop}

theorem Yields.thenRead {first : Reader α} {second : α → Reader β}
    (h : ∀ a, Yields q (second a)) : Yields q (thenRead first second) := by
  intro s b t hread
  obtain ⟨⟨a, r⟩, -, hsecond⟩ := Option.bind_eq_some_iff.mp hread
  exact h a r b t hsecond

theorem Yields.thenRead_of {first : Reader α} {second : α → Reader β} (hfirst : Yields p first)
    (h : ∀ a, p a → Yields q (second a)) : Yields q (Json.thenRead first second) := by
  intro s b t hread
  obtain ⟨⟨a, r⟩, ha, hsecond⟩ := Option.bind_eq_some_iff.mp hread
  exact h a (hfirst s a r ha) r b t hsecond

theorem Yields.map {read : Reader α} (hread : Yields p read) {f : α → β} (h : ∀ a, p a → q (f a)) :
    Yields q fun s => (read s).map fun (a, t) => (f a, t) := by
  rintro s b t hb
  obtain ⟨⟨a, r⟩, ha, heq⟩ := Option.map_eq_some_iff.mp hb
  cases heq
  exact h a (hread s a _ ha)

theorem Yields.readMore {close : Char} {more : Reader (List α)} {element : α}
    (hmore : Yields (∀ a ∈ ·, p a) more) (h : p element) :
    Yields (∀ a ∈ ·, p a) (readMore close more element) := by
  intro s elements t hread
  unfold Json.readMore at hread
  split at hread
  · split_ifs at hread
    · cases hread
      exact List.forall_mem_singleton.mpr h
    · obtain ⟨⟨rest, r⟩, hrest, heq⟩ := Option.map_eq_some_iff.mp hread
      cases heq
      exact List.forall_mem_cons.mpr ⟨h, hmore _ rest _ hrest⟩
  · exact nomatch hread

theorem Yields.readBody {close : Char} {elements : Reader (List α)}
    (h : Yields (∀ a ∈ ·, p a) elements) : Yields (∀ a ∈ ·, p a) (readBody close elements) := by
  intro s read t hread
  unfold Json.readBody at hread
  split at hread
  · split_ifs at hread
    · cases hread
      exact List.forall_mem_nil _
    · exact h s read t hread
  · exact nomatch hread

end Yields

variable (format : FloatFormat F)

theorem distinct_readScalar : Yields Distinct (readScalar format) := by
  intro s j t h
  unfold readScalar at h
  split at h
  case h_1 =>
    obtain ⟨read, -, heq⟩ := Option.map_eq_some_iff.mp h
    cases heq
    trivial
  case h_8 =>
    obtain ⟨read, -, heq⟩ := Option.map_eq_some_iff.mp h
    cases heq
    dsimp only [numberOf]
    split_ifs <;> trivial
  all_goals
    cases h
    trivial

theorem distinct_dictOf {fields : List (String × Json F)} (h : ∀ field ∈ fields, Distinct field.2) :
    Distinct (obj (dictOf fields)) :=
  ⟨nodup_dictOf fields, distinctFields_iff.mpr fun field hfield => h field (mem_dictOf hfield)⟩

/-- One fuel step of the three readers. -/
theorem distinct_readValue : ∀ n, Yields Distinct (readValue format n) ∧
    Yields (∀ j ∈ ·, Distinct j) (readItems format n) ∧
    Yields (∀ field ∈ ·, Distinct (Prod.snd field)) (readFields format n) := by
  intro n
  induction n with
  | zero => exact ⟨fun _ _ _ h => (by cases h), fun _ _ _ h => (by cases h), fun _ _ _ h => (by cases h)⟩
  | succ n ih =>
    obtain ⟨hvalue, hitems, hfields⟩ := ih
    refine ⟨?_, ?_, ?_⟩
    · intro s j t h
      rw [readValue] at h
      split at h
      · cases h
      · split_ifs at h
        · exact (hfields.readBody.map (q := Distinct) fun _ => distinct_dictOf) _ j t h
        · exact (hitems.readBody.map (q := Distinct) fun _ => distinctItems_iff.mpr) _ j t h
        · exact distinct_readScalar format _ j t h
    · have hread : Yields (∀ j ∈ ·, Distinct j)
          (thenRead (readValue format n) (readMore ']' (readItems format n))) :=
        hvalue.thenRead_of fun _ hj => hitems.readMore hj
      exact hread
    · have hfield : Yields (fun field => Distinct (Prod.snd field))
          (readField (readValue format n)) :=
        .thenRead fun _ => .thenRead fun key => .thenRead fun _ =>
          hvalue.map (f := fun value => (key, value)) fun _ h => h
      have hread : Yields (∀ field ∈ ·, Distinct (Prod.snd field))
          (thenRead (readField (readValue format n)) (readMore '}' (readFields format n))) :=
        hfield.thenRead_of fun _ hj =>
          hfields.readMore (p := fun field => Distinct (Prod.snd field)) hj
      exact hread

/-- **What is read of a text** has no key twice. -/
theorem distinct_of_loads {cs : List Char} {j : Json F} (h : loads format cs = some j) :
    Distinct j := by
  unfold loads at h
  split at h
  next k rest hread =>
    split_ifs at h
    cases h
    exact (distinct_readValue format _).1 cs j rest hread
  next => exact nomatch h

/-! ## The text -/

mutual

/-- `json.dumps(j)`. -/
def spaced : Json F → List Char
  | arr [] => ['[', ']']
  | arr (j :: rest) => '[' :: (spaced j ++ spacedItems rest)
  | obj [] => ['{', '}']
  | obj ((key, value) :: rest) =>
    '{' :: (stringText key ++ ':' :: ' ' :: (spaced value ++ spacedFields rest))
  | j => render format j

/-- What follows the first item of an array. -/
def spacedItems : List (Json F) → List Char
  | [] => [']']
  | j :: rest => ',' :: ' ' :: (spaced j ++ spacedItems rest)

/-- What follows the first field of a dictionary. -/
def spacedFields : List (String × Json F) → List Char
  | [] => ['}']
  | (key, value) :: rest =>
    ',' :: ' ' :: (stringText key ++ ':' :: ' ' :: (spaced value ++ spacedFields rest))

end

mutual

/-- It is the text with one blank for a gap. -/
theorem styled_blank : ∀ j : Json F, styled format [' '] j = spaced format j
  | arr [] => by rw [styled, spaced]
  | arr (j :: rest) => by rw [styled, spaced, styled_blank j, styledItems_blank rest]
  | obj [] => by rw [styled, spaced]
  | obj ((key, value) :: rest) => by
    rw [styled, spaced, styled_blank value, styledFields_blank rest, List.singleton_append]
  | null | bool _ | int _ | float _ | str _ => by simp [styled, spaced]

theorem styledItems_blank : ∀ items : List (Json F),
    styledItems format [' '] items = spacedItems format items
  | [] => by rw [styledItems, spacedItems]
  | j :: rest => by
    rw [styledItems, spacedItems, styled_blank j, styledItems_blank rest, List.singleton_append]

theorem styledFields_blank : ∀ fields : List (String × Json F),
    styledFields format [' '] fields = spacedFields format fields
  | [] => by rw [styledFields, spacedFields]
  | (key, value) :: rest => by
    rw [styledFields, spacedFields, styled_blank value, styledFields_blank rest,
      List.singleton_append, List.singleton_append]

end

theorem spaced_printable (j : Json F) : ∀ c ∈ spaced format j, Printable c := by
  rw [← styled_blank]
  exact printable_styled format (List.forall_mem_singleton.mpr (by decide)) j

/-! ## Reading it back -/

theorem isBlank_gap : ∀ c ∈ [' '], isBlank c = true := List.forall_mem_singleton.mpr rfl

theorem heads_spaced (j : Json F) (t : List Char) : Heads Opens (spaced format j ++ t) := by
  rw [← styled_blank]
  exact heads_styled format _ j t

theorem loads_spaced_append {j : Json F} (h : Distinct j) {t : List Char} (ht : Ends t) :
    loads format (spaced format j ++ t) = if next t = none then some j else none := by
  rw [← styled_blank]
  exact loads_styled_append format isBlank_gap h ht

/-- **A text reads back** as its value. -/
theorem loads_spaced {j : Json F} (h : Distinct j) : loads format (spaced format j) = some j := by
  rw [← styled_blank]
  exact loads_styled format isBlank_gap h

theorem spaced_obj (fields : List (String × Json F)) :
    ∃ cs, spaced format (obj fields) = '{' :: cs := by
  cases fields <;> exact ⟨_, by rw [spaced]⟩

theorem spacedFields_last : ∀ fields : List (String × Json F),
    ∃ cs, spacedFields format fields = cs ++ ['}']
  | [] => ⟨[], by rw [spacedFields]; rfl⟩
  | (key, value) :: rest => by
    obtain ⟨cs, hcs⟩ := spacedFields_last rest
    refine ⟨',' :: ' ' :: (stringText key ++ ':' :: ' ' :: (spaced format value ++ cs)), ?_⟩
    rw [spacedFields, hcs]
    simp

theorem spaced_obj_last (fields : List (String × Json F)) :
    ∃ cs, spaced format (obj fields) = cs ++ ['}'] := by
  cases fields with
  | nil => exact ⟨['{'], by rw [spaced]; rfl⟩
  | cons field rest =>
    obtain ⟨key, value⟩ := field
    obtain ⟨cs, hcs⟩ := spacedFields_last format rest
    refine ⟨'{' :: (stringText key ++ ':' :: ' ' :: (spaced format value ++ cs)), ?_⟩
    rw [spaced, hcs]
    simp

/-- **No proper start of a dictionary's text** reads as a value. -/
theorem loads_spaced_prefix {fields : List (String × Json F)} (hdistinct : Distinct (obj fields))
    {p t : List Char} (ht : t ≠ []) (h : spaced format (obj fields) = p ++ t) :
    loads format p = none := by
  rw [← styled_blank] at h
  exact loads_styled_prefix format isBlank_gap hdistinct ht h

end Json

end Veridex.Lib
