import Mathlib

/-!
# JSON values and their canonical text

`dumps` is the compact text with sorted keys and ASCII escapes.

* A dictionary is a list of fields; of two fields with one key the first counts. `sorted` is its
  canonical form, with every dictionary's keys increasing, and `dumps` renders that form.
* Texts are lists of characters: a string is a sequence of Unicode scalar values.
* The type of floats is a parameter. `FloatFormat` is its text, in the grammar of the numbers with a
  fraction or an exponent, and the reading of such a text back.

Results: `canonical_sorted`, `Canonical.sorted_eq` (sorting is idempotent) and `dumps_printable` (a
text is printable ASCII, so it holds no line break).
-/

namespace Veridex.Lib

/-- A JSON value. -/
inductive Json (F : Type) where
  | null
  | bool (b : Bool)
  | int (n : ℤ)
  | float (x : F)
  | str (s : String)
  | arr (items : List (Json F))
  | obj (fields : List (String × Json F))

namespace Json

/-! ## Numbers -/

/-- One or more decimal digits. -/
abbrev Digits := { ds : List (Fin 10) // ds ≠ [] }

/-- The sign an exponent is written with. -/
inductive ExpSign where
  | bare
  | plus
  | minus
  deriving DecidableEq

/-- A number written with a fraction or an exponent. -/
structure FloatLiteral where
  negative : Bool
  whole : ℕ
  fraction : Option Digits
  exponent : Option (ExpSign × Digits)
  isFloat : fraction.isSome ∨ exponent.isSome

/-- What a float is written as. -/
inductive FloatText where
  | finite (literal : FloatLiteral)
  | nan
  | infinity
  | negInfinity

/-- The texts of a type of floats. A float reads back from its own text. -/
structure FloatFormat (F : Type) where
  text : F → FloatText
  ofText : FloatText → F
  ofText_text : ∀ x, ofText (text x) = x

/-- Floats that are their texts. -/
def textFormat : FloatFormat FloatText := ⟨id, id, fun _ => rfl⟩

/-- A decimal digit. -/
def digitChar (d : Fin 10) : Char := Char.ofNat (48 + d)

scoped instance tenNeZero : NeZero 10 := ⟨by decide⟩

/-- The decimal digits of a number. -/
def decimal (n : ℕ) : List (Fin 10) :=
  if n < 10 then [Fin.ofNat 10 n] else decimal (n / 10) ++ [Fin.ofNat 10 n]
termination_by n

def digitsText (ds : List (Fin 10)) : List Char := ds.map digitChar

def signText (negative : Bool) : List Char := if negative then ['-'] else []

def ExpSign.text : ExpSign → List Char
  | .bare => []
  | .plus => ['+']
  | .minus => ['-']

def intText (n : ℤ) : List Char := signText (n < 0) ++ digitsText (decimal n.natAbs)

def fractionText : Option Digits → List Char
  | none => []
  | some ds => '.' :: digitsText ds.1

def exponentText : Option (ExpSign × Digits) → List Char
  | none => []
  | some (sign, ds) => 'e' :: (sign.text ++ digitsText ds.1)

def FloatText.chars : FloatText → List Char
  | .finite l => signText l.negative ++ digitsText (decimal l.whole) ++ fractionText l.fraction ++
      exponentText l.exponent
  | .nan => ['N', 'a', 'N']
  | .infinity => ['I', 'n', 'f', 'i', 'n', 'i', 't', 'y']
  | .negInfinity => ['-', 'I', 'n', 'f', 'i', 'n', 'i', 't', 'y']

/-! ## Strings -/

/-- A hexadecimal digit. -/
def hexChar (d : ℕ) : Char := Char.ofNat (if d < 10 then 48 + d else 87 + d)

/-- A code unit, escaped. -/
def unitEscape (n : ℕ) : List Char :=
  ['\\', 'u', hexChar (n / 4096 % 16), hexChar (n / 256 % 16), hexChar (n / 16 % 16),
    hexChar (n % 16)]

/-- The UTF-16 code units of a character. -/
def unitsOf (c : Char) : List ℕ :=
  if c.toNat < 0x10000 then [c.toNat]
  else [0xd800 + (c.toNat - 0x10000) / 0x400, 0xdc00 + (c.toNat - 0x10000) % 0x400]

/-- The characters with an escape of their own. -/
def shortEscape (c : Char) : Option Char :=
  if c = '"' then some '"'
  else if c = '\\' then some '\\'
  else if c = Char.ofNat 8 then some 'b'
  else if c = Char.ofNat 12 then some 'f'
  else if c = '\n' then some 'n'
  else if c = '\r' then some 'r'
  else if c = '\t' then some 't'
  else none

/-- A character of a string's text. -/
def charText (c : Char) : List Char :=
  match shortEscape c with
  | some e => ['\\', e]
  | none => if 32 ≤ c.toNat ∧ c.toNat < 127 then [c] else (unitsOf c).flatMap unitEscape

def stringText (s : String) : List Char := '"' :: (s.toList.flatMap charText ++ ['"'])

/-! ## Sorting the keys -/

variable {F : Type}

/-- A field, put before the first greater key, and in the place of an equal one. -/
def insertField (key : String) (value : Json F) : List (String × Json F) → List (String × Json F)
  | [] => [(key, value)]
  | (k, v) :: rest =>
    if key < k then (key, value) :: (k, v) :: rest
    else if key = k then (key, value) :: rest
    else (k, v) :: insertField key value rest

mutual

/-- The value with every dictionary's keys in order. -/
def sorted : Json F → Json F
  | arr items => arr (sortedItems items)
  | obj fields => obj (sortedFields fields)
  | j => j

def sortedItems : List (Json F) → List (Json F)
  | [] => []
  | j :: rest => sorted j :: sortedItems rest

def sortedFields : List (String × Json F) → List (String × Json F)
  | [] => []
  | (key, value) :: rest => insertField key (sorted value) (sortedFields rest)

end

mutual

/-- Every dictionary's keys increase. -/
def Canonical : Json F → Prop
  | arr items => CanonicalItems items
  | obj fields => CanonicalFields fields
  | _ => True

def CanonicalItems : List (Json F) → Prop
  | [] => True
  | j :: rest => Canonical j ∧ CanonicalItems rest

def CanonicalFields : List (String × Json F) → Prop
  | [] => True
  | (key, value) :: rest => (∀ field ∈ rest, key < field.1) ∧ Canonical value ∧ CanonicalFields rest

end

theorem mem_insertField {key : String} {value : Json F} {field : String × Json F} :
    ∀ {fields : List (String × Json F)}, field ∈ insertField key value fields →
      field = (key, value) ∨ field ∈ fields
  | [], h => by simpa [insertField] using h
  | (k, v) :: rest, h => by
    rw [insertField] at h
    split_ifs at h
    · simpa using h
    · rcases List.mem_cons.mp h with rfl | h
      · exact .inl rfl
      · exact .inr (List.mem_cons_of_mem _ h)
    · rcases List.mem_cons.mp h with rfl | h
      · exact .inr List.mem_cons_self
      · exact (mem_insertField h).imp_right (List.mem_cons_of_mem _)

theorem CanonicalFields.insertField {key : String} {value : Json F} (hvalue : Canonical value) :
    ∀ {fields : List (String × Json F)}, CanonicalFields fields →
      CanonicalFields (insertField key value fields)
  | [], _ => ⟨by simp, hvalue, trivial⟩
  | (k, v) :: rest, ⟨hbelow, hv, hrest⟩ => by
    rw [Json.insertField]
    split_ifs with hlt heq
    · refine ⟨?_, hvalue, hbelow, hv, hrest⟩
      intro field hfield
      rcases List.mem_cons.mp hfield with rfl | hfield
      · exact hlt
      · exact hlt.trans (hbelow field hfield)
    · exact ⟨heq ▸ hbelow, hvalue, hrest⟩
    · refine ⟨?_, hv, CanonicalFields.insertField hvalue hrest⟩
      intro field hfield
      rcases mem_insertField hfield with rfl | hfield
      · exact lt_of_le_of_ne (not_lt.mp hlt) (Ne.symm heq)
      · exact hbelow field hfield

mutual

/-- **Sorting makes a value canonical.** -/
theorem canonical_sorted : ∀ j : Json F, Canonical (sorted j)
  | arr items => canonical_sortedItems items
  | obj fields => canonical_sortedFields fields
  | null | bool _ | int _ | float _ | str _ => trivial

theorem canonical_sortedItems : ∀ items : List (Json F), CanonicalItems (sortedItems items)
  | [] => trivial
  | j :: rest => ⟨canonical_sorted j, canonical_sortedItems rest⟩

theorem canonical_sortedFields :
    ∀ fields : List (String × Json F), CanonicalFields (sortedFields fields)
  | [] => trivial
  | (_, value) :: rest => (canonical_sortedFields rest).insertField (canonical_sorted value)

end

/-- A key below all others goes to the front. -/
theorem insertField_of_below {key : String} {value : Json F} {fields : List (String × Json F)}
    (h : ∀ field ∈ fields, key < field.1) : insertField key value fields = (key, value) :: fields := by
  cases fields with
  | nil => rfl
  | cons field rest =>
    obtain ⟨k, v⟩ := field
    rw [insertField, if_pos (h (k, v) List.mem_cons_self)]

mutual

/-- **A canonical value is sorted.** -/
theorem Canonical.sorted_eq : ∀ {j : Json F}, Canonical j → sorted j = j
  | arr _, h => by rw [sorted, CanonicalItems.sortedItems_eq h]
  | obj _, h => by rw [sorted, CanonicalFields.sortedFields_eq h]
  | null, _ | bool _, _ | int _, _ | float _, _ | str _, _ => by simp [sorted]

theorem CanonicalItems.sortedItems_eq :
    ∀ {items : List (Json F)}, CanonicalItems items → sortedItems items = items
  | [], _ => rfl
  | _ :: _, ⟨hj, hrest⟩ => by
    rw [sortedItems, Canonical.sorted_eq hj, CanonicalItems.sortedItems_eq hrest]

theorem CanonicalFields.sortedFields_eq :
    ∀ {fields : List (String × Json F)}, CanonicalFields fields → sortedFields fields = fields
  | [], _ => rfl
  | (_, _) :: _, ⟨hbelow, hv, hrest⟩ => by
    rw [sortedFields, Canonical.sorted_eq hv, CanonicalFields.sortedFields_eq hrest,
      insertField_of_below hbelow]

end

@[simp] theorem sorted_sorted (j : Json F) : sorted (sorted j) = sorted j :=
  (canonical_sorted j).sorted_eq

/-! ## Looking a key up -/

theorem lookup_insertField (name key : String) (value : Json F) :
    ∀ fields : List (String × Json F), (insertField key value fields).lookup name =
      if name = key then some value else fields.lookup name
  | [] => by by_cases h : name = key <;> simp [insertField, h]
  | (k, v) :: rest => by
    have ih := lookup_insertField name key value rest
    by_cases hlt : key < k
    · rw [insertField, if_pos hlt]
      by_cases h : name = key
      · simp [h]
      · rw [List.lookup_cons, beq_false_of_ne h, if_neg h]
    · rw [insertField, if_neg hlt]
      by_cases heq : key = k
      · rw [if_pos heq, ← heq]
        by_cases h : name = key
        · simp [h]
        · simp [List.lookup_cons, h, beq_false_of_ne h]
      · rw [if_neg heq]
        by_cases h : name = k
        · have hne : name ≠ key := fun hkey => heq (hkey.symm.trans h)
          rw [if_neg hne, h, List.lookup_cons, List.lookup_cons, beq_self_eq_true]
        · rw [List.lookup_cons, List.lookup_cons, beq_false_of_ne h, ih]

theorem CanonicalFields.filter {fields : List (String × Json F)} (h : CanonicalFields fields)
    (p : String × Json F → Bool) : CanonicalFields (fields.filter p) := by
  induction fields with
  | nil => exact h
  | cons field rest ih =>
    obtain ⟨hbelow, hvalue, hrest⟩ := h
    rw [List.filter_cons]
    split_ifs
    · exact ⟨fun other hother => hbelow other (List.mem_of_mem_filter hother), hvalue, ih hrest⟩
    · exact ih hrest

/-- A sorted list holds its members, sorted. -/
theorem sortedItems_eq_map (items : List (Json F)) : sortedItems items = items.map sorted := by
  induction items with
  | nil => rfl
  | cons item items ih => rw [sortedItems, ih, List.map_cons]

/-- A sorted dictionary holds what it held, sorted. -/
theorem lookup_sortedFields (name : String) : ∀ fields : List (String × Json F),
    (sortedFields fields).lookup name = (fields.lookup name).map sorted
  | [] => rfl
  | (k, v) :: rest => by
    rw [sortedFields, lookup_insertField, lookup_sortedFields name rest]
    by_cases h : name = k
    · simp [h]
    · simp [h, List.lookup_cons, beq_false_of_ne h]

theorem lookup_of_below {key : String} {fields : List (String × Json F)}
    (h : ∀ field ∈ fields, key < field.1) : fields.lookup key = none :=
  List.lookup_eq_none_iff.mpr fun field hfield => bne_iff_ne.mpr (h field hfield).ne

/-- A canonical dictionary is determined by what it holds. -/
theorem CanonicalFields.eq_of_lookup : ∀ {as bs : List (String × Json F)}, CanonicalFields as →
    CanonicalFields bs → (∀ name, as.lookup name = bs.lookup name) → as = bs
  | [], [], _, _, _ => rfl
  | [], (k, v) :: bs, _, _, h => by simpa using h k
  | (k, v) :: as, [], _, _, h => by simpa using h k
  | (k, v) :: as, (k', v') :: bs, ha, hb, h => by
    obtain ⟨habove, -, has⟩ := ha
    obtain ⟨hbbove, -, hbs⟩ := hb
    have hkey : k = k' := by
      rcases lt_trichotomy k k' with hlt | heq | hgt
      · have hnone : ((k', v') :: bs).lookup k = none := lookup_of_below fun field hfield => by
          rcases List.mem_cons.mp hfield with rfl | hfield
          · exact hlt
          · exact hlt.trans (hbbove field hfield)
        rw [← h k] at hnone
        simp at hnone
      · exact heq
      · have hnone : ((k, v) :: as).lookup k' = none := lookup_of_below fun field hfield => by
          rcases List.mem_cons.mp hfield with rfl | hfield
          · exact hgt
          · exact hgt.trans (habove field hfield)
        rw [h k'] at hnone
        simp at hnone
    subst hkey
    have hvalue : v = v' := by simpa using h k
    have hrest : as = bs := has.eq_of_lookup hbs fun name => by
      by_cases hname : name = k
      · rw [hname, lookup_of_below habove, lookup_of_below hbbove]
      · simpa [List.lookup_cons, beq_false_of_ne hname] using h name
    rw [hvalue, hrest]

/-- Two dictionaries have one text exactly when they hold the same, whatever their order. -/
theorem sorted_obj_eq_iff {as bs : List (String × Json F)} : sorted (obj as) = sorted (obj bs) ↔
    ∀ name, (as.lookup name).map sorted = (bs.lookup name).map sorted := by
  simp only [sorted, Json.obj.injEq, ← lookup_sortedFields]
  refine ⟨fun h name => by rw [h], fun h => ?_⟩
  exact (canonical_sortedFields as).eq_of_lookup (canonical_sortedFields bs) h

/-! ## The text -/

variable (format : FloatFormat F)

mutual

/-- A value's compact text, its fields in the order they are in. -/
def render : Json F → List Char
  | null => ['n', 'u', 'l', 'l']
  | bool true => ['t', 'r', 'u', 'e']
  | bool false => ['f', 'a', 'l', 's', 'e']
  | int n => intText n
  | float x => (format.text x).chars
  | str s => stringText s
  | arr [] => ['[', ']']
  | arr (j :: rest) => '[' :: (render j ++ renderItems rest)
  | obj [] => ['{', '}']
  | obj ((key, value) :: rest) => '{' :: (stringText key ++ ':' :: (render value ++ renderFields rest))

/-- What follows the first item of an array. -/
def renderItems : List (Json F) → List Char
  | [] => [']']
  | j :: rest => ',' :: (render j ++ renderItems rest)

/-- What follows the first field of a dictionary. -/
def renderFields : List (String × Json F) → List Char
  | [] => ['}']
  | (key, value) :: rest => ',' :: (stringText key ++ ':' :: (render value ++ renderFields rest))

end

/-- `json.dumps(j, sort_keys=True, separators=(",", ":"))`. -/
def dumps (j : Json F) : List Char := render format (sorted j)

@[simp] theorem dumps_sorted (j : Json F) : dumps format (sorted j) = dumps format j := by
  rw [dumps, dumps, sorted_sorted]

/-! ## Printable ASCII -/

/-- A printable ASCII character. -/
def Printable (c : Char) : Prop := 32 ≤ c.toNat ∧ c.toNat < 127

instance (c : Char) : Decidable (Printable c) := inferInstanceAs (Decidable (_ ∧ _))

/-- A text checked character by character. -/
theorem printable_of_all {cs : List Char} (h : cs.all (decide <| Printable ·) = true) :
    ∀ c ∈ cs, Printable c := by
  simpa using h

theorem printable_digitChar : ∀ d, Printable (digitChar d) := by decide

theorem printable_digitsText (ds : List (Fin 10)) : ∀ c ∈ digitsText ds, Printable c := by
  intro c hc
  obtain ⟨d, -, rfl⟩ := List.mem_map.mp hc
  exact printable_digitChar d

theorem printable_signText (negative : Bool) : ∀ c ∈ signText negative, Printable c := by
  cases negative <;> exact printable_of_all rfl

theorem printable_fractionText (fraction : Option Digits) :
    ∀ c ∈ fractionText fraction, Printable c := by
  cases fraction with
  | none => simp [fractionText]
  | some ds =>
    rw [fractionText, List.forall_mem_cons]
    exact ⟨by decide, printable_digitsText ds.1⟩

theorem printable_exponentText (exponent : Option (ExpSign × Digits)) :
    ∀ c ∈ exponentText exponent, Printable c := by
  rcases exponent with - | ⟨sign, ds⟩
  · simp [exponentText]
  · intro c hc
    simp only [exponentText, List.mem_cons, List.mem_append] at hc
    rcases hc with rfl | hc | hc
    · decide
    · cases sign <;> exact printable_of_all rfl c hc
    · exact printable_digitsText ds.1 c hc

theorem printable_floatText (text : FloatText) : ∀ c ∈ text.chars, Printable c := by
  cases text with
  | finite l =>
    intro c hc
    simp only [FloatText.chars, List.mem_append] at hc
    rcases hc with ((hc | hc) | hc) | hc
    · exact printable_signText _ c hc
    · exact printable_digitsText _ c hc
    · exact printable_fractionText _ c hc
    · exact printable_exponentText _ c hc
  | nan => exact printable_of_all rfl
  | infinity => exact printable_of_all rfl
  | negInfinity => exact printable_of_all rfl

theorem printable_hexChar {d : ℕ} (h : d < 16) : Printable (hexChar d) := by
  have hall : ∀ d : Fin 16, Printable (hexChar d) := by decide
  exact hall ⟨d, h⟩

theorem printable_unitEscape (n : ℕ) : ∀ c ∈ unitEscape n, Printable c := by
  have hdigit : ∀ m, Printable (hexChar (m % 16)) := fun m =>
    printable_hexChar (Nat.mod_lt m (by decide))
  intro c hc
  simp only [unitEscape, List.mem_cons, List.not_mem_nil, or_false] at hc
  rcases hc with rfl | rfl | rfl | rfl | rfl | rfl
  · decide
  · decide
  all_goals exact hdigit _

theorem shortEscape_printable {c e : Char} (h : shortEscape c = some e) : Printable e := by
  unfold shortEscape at h
  split_ifs at h <;> cases h <;> decide

theorem printable_charText (c : Char) : ∀ d ∈ charText c, Printable d := by
  intro d hd
  unfold charText at hd
  cases hshort : shortEscape c with
  | some e =>
    simp only [hshort, List.mem_cons, List.not_mem_nil, or_false] at hd
    rcases hd with rfl | rfl
    · decide
    · exact shortEscape_printable hshort
  | none =>
    simp only [hshort] at hd
    split_ifs at hd with hrange
    · rw [List.mem_singleton.mp hd]
      exact hrange
    · obtain ⟨n, -, hn⟩ := List.mem_flatMap.mp hd
      exact printable_unitEscape n d hn

theorem printable_stringText (s : String) : ∀ c ∈ stringText s, Printable c := by
  intro c hc
  simp only [stringText, List.mem_cons, List.mem_append, List.mem_flatMap, List.not_mem_nil,
    or_false] at hc
  rcases hc with rfl | ⟨d, -, hd⟩ | rfl
  · decide
  · exact printable_charText d c hd
  · decide

mutual

/-- The text with a gap after each comma and each colon. -/
def styled (gap : List Char) : Json F → List Char
  | arr [] => ['[', ']']
  | arr (j :: rest) => '[' :: (styled gap j ++ styledItems gap rest)
  | obj [] => ['{', '}']
  | obj ((key, value) :: rest) =>
    '{' :: (stringText key ++ ':' :: (gap ++ (styled gap value ++ styledFields gap rest)))
  | j => render format j

/-- What follows the first item of an array. -/
def styledItems (gap : List Char) : List (Json F) → List Char
  | [] => [']']
  | j :: rest => ',' :: (gap ++ (styled gap j ++ styledItems gap rest))

/-- What follows the first field of a dictionary. -/
def styledFields (gap : List Char) : List (String × Json F) → List Char
  | [] => ['}']
  | (key, value) :: rest =>
    ',' :: (gap ++ (stringText key ++ ':' :: (gap ++ (styled gap value ++ styledFields gap rest))))

end

mutual

/-- Without a gap, the text is that of `render`. -/
theorem styled_nil : ∀ j : Json F, styled format [] j = render format j
  | arr [] => by rw [styled, render]
  | arr (j :: rest) => by rw [styled, render, styled_nil j, styledItems_nil rest]
  | obj [] => by rw [styled, render]
  | obj ((key, value) :: rest) => by
    rw [styled, render, styled_nil value, styledFields_nil rest, List.nil_append]
  | null | bool _ | int _ | float _ | str _ => by simp [styled]

theorem styledItems_nil : ∀ items : List (Json F),
    styledItems format [] items = renderItems format items
  | [] => by rw [styledItems, renderItems]
  | j :: rest => by
    rw [styledItems, renderItems, styled_nil j, styledItems_nil rest, List.nil_append]

theorem styledFields_nil : ∀ fields : List (String × Json F),
    styledFields format [] fields = renderFields format fields
  | [] => by rw [styledFields, renderFields]
  | (key, value) :: rest => by
    rw [styledFields, renderFields, styled_nil value, styledFields_nil rest, List.nil_append,
      List.nil_append]

end

section

variable {gap : List Char} (hgap : ∀ c ∈ gap, Printable c)

include hgap

mutual

theorem printable_styled : ∀ (j : Json F), ∀ c ∈ styled format gap j, Printable c
  | null | bool true | bool false => by simp only [styled, render]; exact printable_of_all rfl
  | int n => by
    intro c hc
    simp only [styled, render, intText, List.mem_append] at hc
    exact hc.elim (printable_signText _ c) (printable_digitsText _ c)
  | float x => by simp only [styled, render]; exact printable_floatText _
  | str s => by simp only [styled, render]; exact printable_stringText s
  | arr [] => by rw [styled]; exact printable_of_all rfl
  | arr (j :: rest) => by
    intro c hc
    rw [styled, List.mem_cons, List.mem_append] at hc
    rcases hc with rfl | hc | hc
    · decide
    · exact printable_styled j c hc
    · exact printable_styledItems rest c hc
  | obj [] => by rw [styled]; exact printable_of_all rfl
  | obj ((key, value) :: rest) => by
    intro c hc
    simp only [styled, List.mem_cons, List.mem_append] at hc
    rcases hc with rfl | hc | rfl | hc | hc | hc
    · decide
    · exact printable_stringText key c hc
    · decide
    · exact hgap c hc
    · exact printable_styled value c hc
    · exact printable_styledFields rest c hc

theorem printable_styledItems :
    ∀ (items : List (Json F)), ∀ c ∈ styledItems format gap items, Printable c
  | [] => by rw [styledItems]; exact printable_of_all rfl
  | j :: rest => by
    intro c hc
    simp only [styledItems, List.mem_cons, List.mem_append] at hc
    rcases hc with rfl | hc | hc | hc
    · decide
    · exact hgap c hc
    · exact printable_styled j c hc
    · exact printable_styledItems rest c hc

theorem printable_styledFields :
    ∀ (fields : List (String × Json F)), ∀ c ∈ styledFields format gap fields, Printable c
  | [] => by rw [styledFields]; exact printable_of_all rfl
  | (key, value) :: rest => by
    intro c hc
    simp only [styledFields, List.mem_cons, List.mem_append] at hc
    rcases hc with rfl | hc | hc | rfl | hc | hc | hc
    · decide
    · exact hgap c hc
    · exact printable_stringText key c hc
    · decide
    · exact hgap c hc
    · exact printable_styled value c hc
    · exact printable_styledFields rest c hc

end

end

/-- **A text is printable ASCII.** -/
theorem dumps_printable (j : Json F) : ∀ c ∈ dumps format j, Printable c := by
  rw [dumps, ← styled_nil]
  exact printable_styled format (List.forall_mem_nil _) (sorted j)

end Json

end Veridex.Lib

/-!
## Deciding whether two values are the same
-/

namespace Veridex.Lib.Json

variable {F : Type} [DecidableEq F]

mutual

/-- Whether two values are the same. -/
def same : Json F → Json F → Bool
  | .null, .null => true
  | .bool a, .bool b => a == b
  | .int a, .int b => a == b
  | .float a, .float b => decide (a = b)
  | .str a, .str b => a == b
  | .arr as, .arr bs => sameItems as bs
  | .obj as, .obj bs => sameFields as bs
  | _, _ => false

/-- Whether two lists of values are the same. -/
def sameItems : List (Json F) → List (Json F) → Bool
  | [], [] => true
  | a :: as, b :: bs => same a b && sameItems as bs
  | _, _ => false

/-- Whether two lists of fields are the same. -/
def sameFields : List (String × Json F) → List (String × Json F) → Bool
  | [], [] => true
  | (k, a) :: as, (l, b) :: bs => k == l && same a b && sameFields as bs
  | _, _ => false

end

mutual

theorem same_iff : ∀ {a b : Json F}, same a b = true ↔ a = b
  | .arr as, .arr bs => by rw [same, sameItems_iff, Json.arr.injEq]
  | .obj as, .obj bs => by rw [same, sameFields_iff, Json.obj.injEq]
  | .null, b => by cases b <;> simp [same]
  | .bool _, b => by cases b <;> simp [same]
  | .int _, b => by cases b <;> simp [same]
  | .float _, b => by cases b <;> simp [same]
  | .str _, b => by cases b <;> simp [same]
  | .arr _, .null | .arr _, .bool _ | .arr _, .int _ | .arr _, .float _ | .arr _, .str _
  | .arr _, .obj _ => by simp [same]
  | .obj _, .null | .obj _, .bool _ | .obj _, .int _ | .obj _, .float _ | .obj _, .str _
  | .obj _, .arr _ => by simp [same]

theorem sameItems_iff : ∀ {as bs : List (Json F)}, sameItems as bs = true ↔ as = bs
  | [], [] => by simp [sameItems]
  | [], _ :: _ => by simp [sameItems]
  | _ :: _, [] => by simp [sameItems]
  | a :: as, b :: bs => by
    rw [sameItems, Bool.and_eq_true, same_iff, sameItems_iff, List.cons.injEq]

theorem sameFields_iff : ∀ {as bs : List (String × Json F)}, sameFields as bs = true ↔ as = bs
  | [], [] => by simp [sameFields]
  | [], _ :: _ => by simp [sameFields]
  | _ :: _, [] => by simp [sameFields]
  | (k, a) :: as, (l, b) :: bs => by
    rw [sameFields, Bool.and_eq_true, Bool.and_eq_true, beq_iff_eq, same_iff, sameFields_iff,
      List.cons.injEq, Prod.mk.injEq]

end

instance : DecidableEq (Json F) := fun _ _ => decidable_of_iff _ same_iff

end Veridex.Lib.Json
