import Veridex.Lib.Json.Settled

/-!
# Texts read back

* `Distinct`: no dictionary of the value has a key twice. Such a value reads back from its text,
  whatever ends it and whatever blanks stand after the separators (`readValue_styled`).
* `loads_dumps`: `loads` of a value's text is the value with its keys in order, so two values with
  one text are one value (`dumps_inj`).
* `loads_prefix`: no proper start of a dictionary's text is the text of a value.
-/

namespace Veridex.Lib

namespace Json

variable {F : Type}

/-- The text is over, or goes on with a character that ends a number. -/
def Ends (t : List Char) : Prop := ∀ c ∈ t.head?, StopsNumber c

/-! ## Numbers -/

theorem digitOf_digitChar : ∀ d, digitOf (digitChar d) = some d := by decide

theorem spanDigits_digitsText {t : List Char} (ht : ∀ c ∈ t.head?, digitOf c = none) :
    ∀ ds, spanDigits (digitsText ds ++ t) = (ds, t)
  | [] => by
    cases t with
    | nil => rfl
    | cons c cs => simp [digitsText, spanDigits, ht c rfl]
  | d :: ds => by
    have ih := spanDigits_digitsText ht ds
    simp only [digitsText, List.map_cons, List.cons_append, spanDigits, digitOf_digitChar] at ih ⊢
    rw [ih]

theorem digitsNat_append (ds : List (Fin 10)) (d : Fin 10) :
    digitsNat (ds ++ [d]) = 10 * digitsNat ds + d := by
  simp [digitsNat]

theorem digitsNat_decimal (n : ℕ) : digitsNat (decimal n) = n := by
  induction n using Nat.strong_induction_on with
  | _ n ih =>
    rw [decimal]
    split_ifs with h
    · simp [digitsNat, Nat.mod_eq_of_lt h]
    · rw [digitsNat_append, ih (n / 10) (by omega)]
      simp only [Fin.ofNat]
      omega

/-- A positive number's digits do not start with zero. -/
theorem decimal_head {n : ℕ} (hn : 0 < n) : ∃ d ds, decimal n = d :: ds ∧ d ≠ 0 := by
  induction n using Nat.strong_induction_on with
  | _ n ih =>
    rw [decimal]
    split_ifs with h
    · refine ⟨_, [], rfl, ?_⟩
      intro h0
      have hval := congrArg Fin.val h0
      simp [Nat.mod_eq_of_lt h] at hval
      omega
    · obtain ⟨d, ds, hds, hd⟩ := ih (n / 10) (by omega) (by omega)
      exact ⟨d, ds ++ [Fin.ofNat 10 n], by rw [hds]; rfl, hd⟩

theorem readWhole_decimal (n : ℕ) {t : List Char} (ht : ∀ c ∈ t.head?, digitOf c = none) :
    readWhole (digitsText (decimal n) ++ t) = some (n, t) := by
  rw [readWhole, spanDigits_digitsText ht]
  rcases Nat.eq_zero_or_pos n with rfl | hn
  · rw [show decimal 0 = [0] by rw [decimal]; rfl]
    rfl
  · obtain ⟨d, ds, hds, hd⟩ := decimal_head hn
    have hvalue := digitsNat_decimal n
    rw [hds] at hvalue ⊢
    simp [hd, hvalue]

theorem readSign_signText (negative : Bool) {t : List Char} (ht : ∀ c ∈ t.head?, c ≠ '-') :
    readSign (signText negative ++ t) = (negative, t) := by
  cases negative with
  | true => rfl
  | false =>
    cases t with
    | nil => rfl
    | cons c cs => simp [signText, readSign, ht c rfl]

theorem readFraction_fractionText {t : List Char} (ht : ∀ c ∈ t.head?, digitOf c = none ∧ c ≠ '.')
    (fraction : Option Digits) : readFraction (fractionText fraction ++ t) = (fraction, t) := by
  cases fraction with
  | none =>
    cases t with
    | nil => rfl
    | cons c cs => simp [fractionText, readFraction, (ht c rfl).2]
  | some ds =>
    have hspan := spanDigits_digitsText (fun c hc => (ht c hc).1) ds.1
    simp [fractionText, readFraction, hspan, ds.2]

theorem readExpSign_text {sign : ExpSign} {d : Fin 10} {cs : List Char} :
    readExpSign (sign.text ++ digitChar d :: cs) = (sign, digitChar d :: cs) := by
  have hplus : ∀ d, digitChar d ≠ '+' := by decide
  have hminus : ∀ d, digitChar d ≠ '-' := by decide
  cases sign with
  | bare => simp [ExpSign.text, readExpSign, hplus, hminus]
  | plus => rfl
  | minus => rfl

theorem readExponent_exponentText {t : List Char} (ht : Ends t)
    (exponent : Option (ExpSign × Digits)) :
    readExponent (exponentText exponent ++ t) = (exponent, t) := by
  rcases exponent with - | ⟨sign, ds, hds⟩
  · cases t with
    | nil => rfl
    | cons c cs =>
      obtain ⟨-, -, he, hE⟩ := ht c rfl
      simp [exponentText, readExponent, he, hE]
  · obtain ⟨d, ds, rfl⟩ := List.exists_cons_of_ne_nil hds
    have hspan := spanDigits_digitsText (fun c hc => (ht c hc).1) (d :: ds)
    simp only [digitsText, List.map_cons, List.cons_append] at hspan
    simp [exponentText, readExponent, digitsText, readExpSign_text, hspan]

theorem head_digitsText_decimal (n : ℕ) (t : List Char) :
    ∀ c ∈ (digitsText (decimal n) ++ t).head?, c ≠ '-' := by
  have hminus : ∀ d, digitChar d ≠ '-' := by decide
  cases h : decimal n with
  | nil =>
    rw [decimal] at h
    split_ifs at h
    simp at h
  | cons d ds =>
    rintro c ⟨⟩
    exact hminus d

variable (format : FloatFormat F)

theorem readNumber_intText (n : ℤ) {t : List Char} (ht : Ends t) :
    readNumber format (intText n ++ t) = some (int n, t) := by
  have hsign := readSign_signText (decide (n < 0)) (head_digitsText_decimal n.natAbs t)
  have hfrac := readFraction_fractionText (fun c hc => ⟨(ht c hc).1, (ht c hc).2.1⟩) none
  have hexp := readExponent_exponentText ht none
  simp only [fractionText, exponentText, List.nil_append] at hfrac hexp
  rw [readNumber, intText, List.append_assoc, hsign, readWhole_decimal _ fun c hc => (ht c hc).1]
  have hvalue : (if decide (n < 0) then -(n.natAbs : ℤ) else n.natAbs) = n := by
    by_cases hneg : n < 0
    · rw [if_pos (decide_eq_true hneg)]
      omega
    · rw [if_neg (by simpa using hneg)]
      omega
  have hnumber : numberOf format (decide (n < 0)) n.natAbs none none = int n := by
    rw [numberOf, dif_neg (by simp), hvalue]
  simp only [Option.map_some, hfrac, hexp, hnumber]

omit format in
theorem intText_injective : Function.Injective intText := by
  intro m n h
  have hends : Ends [] := by simp [Ends]
  have hread := readNumber_intText textFormat m hends
  rw [h, readNumber_intText textFormat n hends, Option.some.injEq, Prod.mk.injEq, int.injEq] at hread
  exact hread.1.symm

theorem readNumber_finite (l : FloatLiteral) {t : List Char} (ht : Ends t) :
    readNumber format ((FloatText.finite l).chars ++ t) = some (float (format.ofText (.finite l)), t) := by
  have hexp := readExponent_exponentText ht l.exponent
  have hexpHead : ∀ c ∈ (exponentText l.exponent ++ t).head?, digitOf c = none ∧ c ≠ '.' := by
    rcases l.exponent with - | ⟨sign, ds⟩
    · exact fun c hc => ⟨(ht c hc).1, (ht c hc).2.1⟩
    · rintro c ⟨⟩
      exact ⟨by decide, by decide⟩
  have hfrac := readFraction_fractionText hexpHead l.fraction
  have hfracHead : ∀ c ∈ (fractionText l.fraction ++ (exponentText l.exponent ++ t)).head?,
      digitOf c = none := by
    rcases l.fraction with - | ds
    · exact fun c hc => (hexpHead c hc).1
    · rintro c ⟨⟩
      decide
  have hsign := readSign_signText l.negative (head_digitsText_decimal l.whole
    (fractionText l.fraction ++ (exponentText l.exponent ++ t)))
  rw [readNumber]
  simp only [FloatText.chars, List.append_assoc, hsign, readWhole_decimal _ hfracHead,
    Option.map_some, hfrac, hexp, numberOf]
  rw [dif_pos l.isFloat]

/-! ## Strings -/

theorem hexOf_hexChar {d : ℕ} (h : d < 16) : hexOf (hexChar d) = some d := by
  have hall : ∀ d : Fin 16, hexOf (hexChar d) = some d.1 := by decide
  exact hall ⟨d, h⟩

theorem readUnits_unitEscape {n : ℕ} (h : n < 0x10000) (cs : List Char) :
    readUnits (unitEscape n ++ cs) = (readUnits cs).map fun read => (n :: read.1, read.2) := by
  have hdigit : ∀ m, hexOf (hexChar (m % 16)) = some (m % 16) := fun m =>
    hexOf_hexChar (Nat.mod_lt m (by decide))
  have hvalue : 4096 * (n / 4096 % 16) + 256 * (n / 256 % 16) + 16 * (n / 16 % 16) + n % 16 = n := by
    omega
  simp only [unitEscape, List.cons_append, List.nil_append, readUnits, hex4, hdigit,
    Option.bind_eq_bind, Option.bind_some, hvalue]
  cases readUnits cs <;> rfl

theorem shortOf_shortEscape {c e : Char} (h : shortEscape c = some e) :
    shortOf e = some c.toNat ∧ e ≠ 'u' ∧ unitsOf c = [c.toNat] := by
  unfold shortEscape at h
  split_ifs at h <;> cases h <;> subst_vars <;> exact ⟨by decide, by decide, by decide⟩

theorem toNat_valid (c : Char) :
    c.toNat < 0xd800 ∨ (0xdfff < c.toNat ∧ c.toNat < 0x110000) := c.valid

theorem unitsOf_lt (c : Char) : ∀ n ∈ unitsOf c, n < 0x10000 := by
  have hvalid := toNat_valid c
  intro n hn
  unfold unitsOf at hn
  split_ifs at hn with h
  · simp only [List.mem_singleton] at hn
    omega
  · simp only [List.mem_cons, List.not_mem_nil, or_false] at hn
    omega

theorem readUnits_charText (c : Char) (cs : List Char) :
    readUnits (charText c ++ cs) = (readUnits cs).map fun read => (unitsOf c ++ read.1, read.2) := by
  unfold charText
  cases hshort : shortEscape c with
  | some e =>
    obtain ⟨hvalue, hu, hunits⟩ := shortOf_shortEscape hshort
    simp only [List.cons_append, List.nil_append, readUnits_short hu, hvalue, hunits,
      Option.bind_eq_bind, Option.bind_some]
    cases readUnits cs <;> rfl
  | none =>
    simp only
    split_ifs with hrange
    · have hquote : c ≠ '"' := by
        rintro rfl
        simp [shortEscape] at hshort
      have hslash : c ≠ '\\' := by
        rintro rfl
        simp [shortEscape] at hshort
      have hunits : unitsOf c = [c.toNat] := if_pos (by omega)
      rw [List.cons_append, List.nil_append, readUnits_plain hquote hslash hrange.1, hunits]
      rfl
    · have hlt := unitsOf_lt c
      generalize unitsOf c = units at hlt
      induction units with
      | nil => simp
      | cons n units ih =>
        rw [List.flatMap_cons, List.append_assoc,
          readUnits_unitEscape (hlt n List.mem_cons_self),
          ih fun m hm => hlt m (List.mem_cons_of_mem _ hm)]
        cases readUnits cs <;> rfl

theorem readUnits_text (t : List Char) : ∀ cs : List Char,
    readUnits (cs.flatMap charText ++ '"' :: t) = some (cs.flatMap unitsOf, t)
  | [] => rfl
  | c :: cs => by
    rw [List.flatMap_cons, List.append_assoc, readUnits_charText, readUnits_text t cs]
    rfl

theorem joinUnits_cons {n : ℕ} (h : isHigh n = false) (rest : List ℕ) :
    joinUnits (n :: rest) = charOf n :: joinUnits rest := by
  cases rest with
  | nil => rfl
  | cons m rest => simp [joinUnits, h]

theorem charOf_toNat (c : Char) : charOf c.toNat = c := by
  have hvalid : c.toNat.isValidChar := c.valid
  simp [charOf, hvalid]

theorem joinUnits_unitsOf_append (c : Char) (rest : List ℕ) :
    joinUnits (unitsOf c ++ rest) = c :: joinUnits rest := by
  have hvalid := toNat_valid c
  unfold unitsOf
  split_ifs with h
  · have hhigh : isHigh c.toNat = false := by
      simp [isHigh]
      omega
    rw [List.cons_append, List.nil_append, joinUnits_cons hhigh, charOf_toNat]
  · have hhigh : isHigh (0xd800 + (c.toNat - 0x10000) / 0x400) = true := by
      simp [isHigh]
      omega
    have hlow : isLow (0xdc00 + (c.toNat - 0x10000) % 0x400) = true := by
      simp [isLow]
      omega
    have hvalue : 0x10000 + (0xd800 + (c.toNat - 0x10000) / 0x400 - 0xd800) * 0x400 +
        (0xdc00 + (c.toNat - 0x10000) % 0x400 - 0xdc00) = c.toNat := by omega
    rw [List.cons_append, List.cons_append, List.nil_append, joinUnits, hhigh, hlow, hvalue,
      charOf_toNat]
    rfl

theorem joinUnits_unitsOf : ∀ cs : List Char, joinUnits (cs.flatMap unitsOf) = cs
  | [] => rfl
  | c :: cs => by rw [List.flatMap_cons, joinUnits_unitsOf_append, joinUnits_unitsOf cs]

theorem readString_text (s : String) (t : List Char) :
    readString (s.toList.flatMap charText ++ '"' :: t) = some (s, t) := by
  rw [readString, readUnits_text, Option.map_some]
  simp only [joinUnits_unitsOf, String.ofList_toList]

/-! ## Values -/

/-- A character no value's text is skipped or closed at. -/
def Opens (c : Char) : Prop := isBlank c = false ∧ c ≠ ']'

/-- The text begins with the character a scalar may begin with. -/
def OpensScalar (c : Char) : Prop := isBlank c = false ∧ c ≠ '{' ∧ c ≠ '[' ∧ c ≠ ']'

theorem opensScalar_digitChar : ∀ d, OpensScalar (digitChar d) := by
  unfold OpensScalar
  decide

theorem heads_digitsText_decimal (n : ℕ) (t : List Char) :
    Heads OpensScalar (digitsText (decimal n) ++ t) := by
  cases h : decimal n with
  | nil =>
    rw [decimal] at h
    split_ifs at h
    simp at h
  | cons d ds => exact opensScalar_digitChar d

theorem heads_signText (negative : Bool) (n : ℕ) (t : List Char) :
    Heads OpensScalar (signText negative ++ (digitsText (decimal n) ++ t)) := by
  cases negative with
  | true => exact ⟨by decide, by decide⟩
  | false => exact heads_digitsText_decimal n t

theorem heads_floatText (text : FloatText) (t : List Char) :
    Heads OpensScalar (text.chars ++ t) := by
  cases text with
  | finite l => simpa [FloatText.chars] using heads_signText l.negative l.whole _
  | nan => exact ⟨by decide, by decide⟩
  | infinity => exact ⟨by decide, by decide⟩
  | negInfinity => exact ⟨by decide, by decide⟩

/-- What a value's text begins with. -/
theorem heads_styled (gap : List Char) (j : Json F) (t : List Char) :
    Heads Opens (styled format gap j ++ t) := by
  have hscalar : ∀ {s}, Heads OpensScalar s → Heads Opens s := by
    intro s h
    cases s with
    | nil => exact h
    | cons c cs => exact ⟨h.1, h.2.2.2⟩
  cases j with
  | null => exact ⟨by decide, by decide⟩
  | bool b => cases b <;> exact ⟨by decide, by decide⟩
  | int n =>
    simp only [styled, render, intText, List.append_assoc]
    exact hscalar (heads_signText _ _ _)
  | float x =>
    simp only [styled, render]
    exact hscalar (heads_floatText _ _)
  | str s => exact ⟨by decide, by decide⟩
  | arr items => cases items <;> exact ⟨by decide, by decide⟩
  | obj fields => cases fields <;> exact ⟨by decide, by decide⟩

theorem next_cons {c : Char} (hc : isBlank c = false) (cs : List Char) :
    next (c :: cs) = some (c, cs) := by
  simp [next, hc]

theorem readValue_scalar {n : ℕ} {s : List Char} (h : Heads OpensScalar s) :
    readValue format (n + 1) s = readScalar format s := by
  cases s with
  | nil => exact h.elim
  | cons c cs =>
    obtain ⟨hblank, hobj, harr, -⟩ := h
    simp [readValue, next_cons hblank, hobj, harr]

theorem readScalar_floatText (text : FloatText) {t : List Char} (ht : Ends t) :
    readScalar format (text.chars ++ t) = some (float (format.ofText text), t) := by
  cases text with
  | finite l => exact readScalar_of_readNumber format (readNumber_finite format l ht)
  | nan => rfl
  | infinity => rfl
  | negInfinity => rfl

theorem ends_cons {c : Char} (h : StopsNumber c) (t : List Char) : Ends (c :: t) := by
  rintro c' ⟨⟩
  exact h

theorem lookup_setField (name : String) (value : Json F) :
    ∀ fields : List (String × Json F), (setField name value fields).lookup name = some value := by
  intro fields
  induction fields with
  | nil => simp [setField]
  | cons field rest ih =>
    obtain ⟨k, v⟩ := field
    rw [setField]
    split_ifs with h
    · simp [h]
    · simp [List.lookup_cons, beq_false_of_ne (Ne.symm h), ih]

theorem lookup_setField_of_ne {name other : String} (hne : other ≠ name) (value : Json F) :
    ∀ fields : List (String × Json F),
      (setField name value fields).lookup other = fields.lookup other := by
  intro fields
  induction fields with
  | nil => simp [setField, List.lookup_cons, beq_false_of_ne hne]
  | cons field rest ih =>
    obtain ⟨k, v⟩ := field
    rw [setField]
    split_ifs with h
    · subst h
      simp [List.lookup_cons, beq_false_of_ne hne]
    · simp [List.lookup_cons, ih]

theorem setField_of_notMem {key : String} {value : Json F} :
    ∀ {fields : List (String × Json F)}, (∀ field ∈ fields, field.1 ≠ key) →
      setField key value fields = fields ++ [(key, value)]
  | [], _ => rfl
  | (k, v) :: rest, h => by
    rw [setField, if_neg (h (k, v) List.mem_cons_self),
      setField_of_notMem fun field hfield => h field (List.mem_cons_of_mem _ hfield)]
    rfl

theorem dictOf_concat (pairs : List (String × Json F)) (key : String) (value : Json F) :
    dictOf (pairs ++ [(key, value)]) = setField key value (dictOf pairs) := by
  simp [dictOf]

/-- A dictionary has the last value of each key. -/
theorem lookup_dictOf (name : String) (pairs : List (String × Json F)) :
    (dictOf pairs).lookup name =
      ((pairs.filter fun pair => pair.1 = name).getLast?).map Prod.snd := by
  induction pairs using List.reverseRecOn with
  | nil => rfl
  | append_singleton pairs pair ih =>
    obtain ⟨key, value⟩ := pair
    rw [dictOf_concat, List.filter_append]
    by_cases h : key = name
    · subst h
      simp [lookup_setField]
    · rw [lookup_setField_of_ne (Ne.symm h), ih]
      simp [h]

theorem mem_setField {key : String} {value : Json F} {field : String × Json F} :
    ∀ {fields : List (String × Json F)}, field ∈ setField key value fields →
      field = (key, value) ∨ field ∈ fields
  | [], h => .inl (List.mem_singleton.mp h)
  | (k, v) :: rest, h => by
    rw [setField] at h
    split_ifs at h with hkey
    · rcases List.mem_cons.mp h with rfl | h
      · exact .inl (by rw [hkey])
      · exact .inr (List.mem_cons_of_mem _ h)
    · rcases List.mem_cons.mp h with rfl | h
      · exact .inr List.mem_cons_self
      · exact (mem_setField h).imp id (List.mem_cons_of_mem _)

theorem mem_dictOf {pairs : List (String × Json F)} {field : String × Json F}
    (h : field ∈ dictOf pairs) : field ∈ pairs := by
  induction pairs using List.reverseRecOn with
  | nil => exact h
  | append_singleton pairs pair ih =>
    rw [dictOf_concat] at h
    rcases mem_setField h with rfl | h
    · exact List.mem_append_right _ (List.mem_singleton_self _)
    · exact List.mem_append_left _ (ih h)

theorem keys_setField (key : String) (value : Json F) : ∀ fields : List (String × Json F),
    (setField key value fields).map Prod.fst =
      if key ∈ fields.map Prod.fst then fields.map Prod.fst else fields.map Prod.fst ++ [key] := by
  intro fields
  induction fields with
  | nil => simp [setField]
  | cons field rest ih =>
    obtain ⟨k, v⟩ := field
    rw [setField]
    by_cases h : k = key
    · simp [h]
    · rw [if_neg h, List.map_cons, ih]
      simp only [List.map_cons, List.mem_cons, Ne.symm h, false_or]
      split_ifs <;> rfl

/-- No key of a dictionary occurs twice. -/
theorem nodup_dictOf (pairs : List (String × Json F)) : ((dictOf pairs).map Prod.fst).Nodup := by
  induction pairs using List.reverseRecOn with
  | nil => exact List.nodup_nil
  | append_singleton pairs pair ih =>
    rw [dictOf_concat, keys_setField]
    split_ifs with h
    · exact ih
    · exact List.nodup_append.mpr ⟨ih, List.pairwise_singleton _ _, by
        rintro a ha b hb rfl
        exact h (List.mem_singleton.mp hb ▸ ha)⟩

/-! ## Texts of whole values -/

mutual

/-- No dictionary has a key twice. -/
def Distinct : Json F → Prop
  | arr items => DistinctItems items
  | obj fields => (fields.map Prod.fst).Nodup ∧ DistinctFields fields
  | _ => True

def DistinctItems : List (Json F) → Prop
  | [] => True
  | j :: rest => Distinct j ∧ DistinctItems rest

def DistinctFields : List (String × Json F) → Prop
  | [] => True
  | (_, value) :: rest => Distinct value ∧ DistinctFields rest

end

theorem distinctItems_iff {items : List (Json F)} : DistinctItems items ↔ ∀ j ∈ items, Distinct j := by
  induction items with
  | nil => simp [DistinctItems]
  | cons j rest ih => simp [DistinctItems, ih]

theorem distinctFields_iff {fields : List (String × Json F)} :
    DistinctFields fields ↔ ∀ field ∈ fields, Distinct field.2 := by
  induction fields with
  | nil => simp [DistinctFields]
  | cons field rest ih => simp [DistinctFields, ih]

/-- Fields no two of which have one key are a dictionary already. -/
theorem dictOf_of_nodup {fields : List (String × Json F)} (h : (fields.map Prod.fst).Nodup) :
    dictOf fields = fields := by
  induction fields using List.reverseRecOn with
  | nil => rfl
  | append_singleton fields field ih =>
    rw [List.map_append, List.nodup_append] at h
    rw [dictOf_concat, ih h.1, setField_of_notMem fun other hother =>
      h.2.2 _ (List.mem_map_of_mem hother) _ (List.mem_singleton_self _)]

mutual

/-- A canonical value has no key twice. -/
theorem Canonical.distinct : ∀ {j : Json F}, Canonical j → Distinct j
  | arr _, h => CanonicalItems.distinctItems h
  | obj _, h => CanonicalFields.distinctFields h
  | null, _ | bool _, _ | int _, _ | float _, _ | str _, _ => trivial

theorem CanonicalItems.distinctItems :
    ∀ {items : List (Json F)}, CanonicalItems items → DistinctItems items
  | [], _ => trivial
  | _ :: _, ⟨hj, hrest⟩ => ⟨hj.distinct, hrest.distinctItems⟩

theorem CanonicalFields.distinctFields : ∀ {fields : List (String × Json F)},
    CanonicalFields fields → (fields.map Prod.fst).Nodup ∧ DistinctFields fields
  | [], _ => ⟨List.nodup_nil, trivial⟩
  | (key, _) :: _, ⟨hbelow, hvalue, hrest⟩ => by
    refine ⟨List.nodup_cons.mpr ⟨?_, hrest.distinctFields.1⟩, hvalue.distinct, hrest.distinctFields.2⟩
    rintro hkey
    obtain ⟨field, hfield, rfl⟩ := List.mem_map.mp hkey
    exact (hbelow field hfield).false

end

theorem readField_text {value : Reader (Json F)} {key : String} {v : Json F} {s t : List Char}
    (hvalue : value s = some (v, t)) :
    readField value (stringText key ++ ':' :: s) = some ((key, v), t) := by
  have hquote : next (stringText key ++ ':' :: s) =
      some ('"', key.toList.flatMap charText ++ '"' :: ':' :: s) := by
    simp [stringText, next_cons (show isBlank '"' = false by decide)]
  simp [readField, thenRead, token, hquote, readString_text, hvalue,
    next_cons (show isBlank ':' = false by decide)]

theorem readMore_close {α : Type} (close : Char) (hclose : isBlank close = false)
    (more : Reader (List α)) (element : α) (t : List Char) :
    readMore close more element (close :: t) = some ([element], t) := by
  simp [readMore, next_cons hclose]

theorem readMore_comma {α : Type} (close : Char) (hclose : ',' ≠ close) {more : Reader (List α)}
    (element : α) {elements : List α} {s t : List Char} (h : more s = some (elements, t)) :
    readMore close more element (',' :: s) = some (element :: elements, t) := by
  simp [readMore, next_cons (show isBlank ',' = false by decide), hclose, h]

theorem readBody_open {α : Type} {close c : Char} {elements : Reader (List α)}
    (hblank : isBlank c = false) (hclose : c ≠ close) (cs : List Char) :
    readBody close elements (c :: cs) = elements (c :: cs) := by
  simp [readBody, next_cons hblank, hclose]

/-! ## Gaps -/

section Gap

variable {gap : List Char} (hgap : ∀ c ∈ gap, isBlank c = true)

include hgap

theorem next_gap (cs : List Char) : next (gap ++ cs) = next cs := by
  induction gap with
  | nil => rfl
  | cons c gap ih =>
    rw [List.cons_append, next, if_pos (hgap c List.mem_cons_self),
      ih fun c hc => hgap c (List.mem_cons_of_mem _ hc)]

theorem readValue_gap (n : ℕ) (cs : List Char) :
    readValue format n (gap ++ cs) = readValue format n cs := by
  cases n with
  | zero => rw [readValue, readValue]
  | succ n => rw [readValue, readValue, next_gap hgap]

theorem readItems_gap (n : ℕ) (cs : List Char) :
    readItems format n (gap ++ cs) = readItems format n cs := by
  cases n with
  | zero => rw [readItems, readItems]
  | succ n => rw [readItems, readItems, thenRead, thenRead, readValue_gap format hgap]

theorem readFields_gap (n : ℕ) (cs : List Char) :
    readFields format n (gap ++ cs) = readFields format n cs := by
  cases n with
  | zero => rw [readFields, readFields]
  | succ n =>
    have htoken : token '"' (gap ++ cs) = token '"' cs := by rw [token, token, next_gap hgap]
    rw [readFields, readFields, thenRead, thenRead, readField, thenRead, thenRead, htoken]

/-- The items of an array, as far as the bracket that closes it. -/
def itemsText (gap : List Char) : List (Json F) → List Char
  | [] => []
  | j :: rest => styled format gap j ++ styledItems format gap rest

/-- The fields of a dictionary, as far as the brace that closes it. -/
def fieldsText (gap : List Char) : List (String × Json F) → List Char
  | [] => []
  | (key, value) :: rest =>
    stringText key ++ ':' :: (gap ++ (styled format gap value ++ styledFields format gap rest))

mutual

/-- **A value reads back from its text**, whatever ends it. -/
theorem readValue_styled : ∀ {j : Json F}, Distinct j → ∀ {n : ℕ} {t : List Char},
    2 * (styled format gap j ++ t).length + 1 ≤ n → Ends t →
      readValue format n (styled format gap j ++ t) = some (j, t)
  | _, _, 0, _, hn, _ => by omega
  | null, _, n + 1, t, _, _ => rfl
  | bool true, _, n + 1, t, _, _ => rfl
  | bool false, _, n + 1, t, _, _ => rfl
  | int k, _, n + 1, t, _, ht => by
    have hheads : Heads OpensScalar (intText k ++ t) := by
      simpa [intText] using heads_signText (decide (k < 0)) k.natAbs t
    simp only [styled, render]
    rw [readValue_scalar format hheads]
    exact readScalar_of_readNumber format (readNumber_intText format k ht)
  | float x, _, n + 1, t, _, ht => by
    simp only [styled, render]
    rw [readValue_scalar format (heads_floatText _ _), readScalar_floatText format _ ht,
      format.ofText_text]
  | str s, _, n + 1, t, _, _ => by
    have htext : styled format gap (str s) ++ t =
        '"' :: (s.toList.flatMap charText ++ '"' :: t) := by simp [styled, render, stringText]
    have hheads : Heads OpensScalar ('"' :: (s.toList.flatMap charText ++ '"' :: t)) :=
      show OpensScalar '"' from ⟨by decide, by decide⟩
    rw [htext, readValue_scalar format hheads, readScalar, readString_text]
    rfl
  | arr [], _, n + 1, t, _, _ => rfl
  | arr (j :: rest), h, n + 1, t, hn, _ => by
    have htext : styled format gap (arr (j :: rest)) ++ t =
        '[' :: (itemsText format gap (j :: rest) ++ t) := by simp [styled, itemsText]
    rw [htext] at hn ⊢
    rw [List.length_cons] at hn
    have hitems := readItems_styled h (by simp) (n := n) (t := t) (by omega)
    have hbody : readBody ']' (readItems format n) (itemsText format gap (j :: rest) ++ t) =
        some (j :: rest, t) := by
      have hheads := heads_styled format gap j (styledItems format gap rest ++ t)
      rw [itemsText, List.append_assoc] at hitems ⊢
      generalize styled format gap j ++ (styledItems format gap rest ++ t) = s at hitems hheads ⊢
      cases s with
      | nil => exact hheads.elim
      | cons c cs => rw [readBody_open hheads.1 hheads.2 cs, hitems]
    simp [readValue, next_cons (show isBlank '[' = false by decide), hbody]
  | obj [], _, n + 1, t, _, _ => rfl
  | obj ((key, value) :: rest), h, n + 1, t, hn, _ => by
    have htext : styled format gap (obj ((key, value) :: rest)) ++ t =
        '{' :: (fieldsText format gap ((key, value) :: rest) ++ t) := by simp [styled, fieldsText]
    rw [htext] at hn ⊢
    rw [List.length_cons] at hn
    have hfields := readFields_styled h.2 (by simp) (n := n) (t := t) (by omega)
    have hbody : readBody '}' (readFields format n)
        (fieldsText format gap ((key, value) :: rest) ++ t) = some ((key, value) :: rest, t) := by
      rw [fieldsText, stringText, List.cons_append, List.cons_append] at hfields ⊢
      rw [readBody_open (by decide) (by decide), hfields]
    simp [readValue, next_cons (show isBlank '{' = false by decide), hbody, dictOf_of_nodup h.1]

theorem readItems_styled : ∀ {items : List (Json F)}, DistinctItems items → items ≠ [] →
    ∀ {n : ℕ} {t : List Char}, 2 * (itemsText format gap items ++ t).length + 2 ≤ n →
      readItems format n (itemsText format gap items ++ t) = some (items, t)
  | [], _, h, _, _, _ => absurd rfl h
  | _ :: _, _, _, 0, _, hn => by omega
  | [j], ⟨hj, _⟩, _, n + 1, t, hn => by
    rw [itemsText, styledItems, List.append_assoc, List.singleton_append] at hn ⊢
    have hvalue := readValue_styled hj (n := n) (t := ']' :: t) (by omega)
      (ends_cons ⟨by decide, by decide⟩ t)
    rw [readItems, thenRead]
    simp [hvalue, readMore_close ']' (by decide)]
  | j :: k :: rest, ⟨hj, hrest⟩, _, n + 1, t, hn => by
    have htext : itemsText format gap (j :: k :: rest) ++ t =
        styled format gap j ++ ',' :: (gap ++ (itemsText format gap (k :: rest) ++ t)) := by
      simp [itemsText, styledItems]
    rw [htext] at hn ⊢
    simp only [List.length_append, List.length_cons] at hn
    have hvalue := readValue_styled hj (n := n)
      (t := ',' :: (gap ++ (itemsText format gap (k :: rest) ++ t)))
      (by simp only [List.length_append, List.length_cons]; omega)
      (ends_cons ⟨by decide, by decide⟩ _)
    have hitems := readItems_styled hrest (by simp) (n := n) (t := t)
      (by rw [List.length_append]; omega)
    rw [← readItems_gap format hgap] at hitems
    rw [readItems, thenRead, hvalue]
    exact readMore_comma ']' (by decide) j hitems

theorem readFields_styled : ∀ {fields : List (String × Json F)}, DistinctFields fields →
    fields ≠ [] → ∀ {n : ℕ} {t : List Char},
      2 * (fieldsText format gap fields ++ t).length + 2 ≤ n →
        readFields format n (fieldsText format gap fields ++ t) = some (fields, t)
  | [], _, h, _, _, _ => absurd rfl h
  | _ :: _, _, _, 0, _, hn => by omega
  | [(key, value)], ⟨hvalue, _⟩, _, n + 1, t, hn => by
    have htext : fieldsText format gap [(key, value)] ++ t =
        stringText key ++ ':' :: (gap ++ (styled format gap value ++ '}' :: t)) := by
      simp [fieldsText, styledFields]
    rw [htext] at hn ⊢
    simp only [List.length_append, List.length_cons] at hn
    have hread := readValue_styled hvalue (n := n) (t := '}' :: t)
      (by simp only [List.length_append, List.length_cons]; omega)
      (ends_cons ⟨by decide, by decide⟩ t)
    rw [← readValue_gap format hgap] at hread
    rw [readFields, thenRead, readField_text hread]
    exact readMore_close '}' (by decide) (readFields format n) _ t
  | (key, value) :: field :: rest, ⟨hvalue, hrest⟩, _, n + 1, t, hn => by
    have htext : fieldsText format gap ((key, value) :: field :: rest) ++ t =
        stringText key ++ ':' :: (gap ++ (styled format gap value ++ ',' :: (gap ++
          (fieldsText format gap (field :: rest) ++ t)))) := by
      simp [fieldsText, styledFields]
    rw [htext] at hn ⊢
    simp only [List.length_append, List.length_cons] at hn
    have hread := readValue_styled hvalue (n := n)
      (t := ',' :: (gap ++ (fieldsText format gap (field :: rest) ++ t)))
      (by simp only [List.length_append, List.length_cons]; omega)
      (ends_cons ⟨by decide, by decide⟩ _)
    rw [← readValue_gap format hgap] at hread
    have hfields := readFields_styled hrest (by simp) (n := n) (t := t)
      (by rw [List.length_append]; omega)
    rw [← readFields_gap format hgap] at hfields
    rw [readFields, thenRead, readField_text hread]
    exact readMore_comma '}' (by decide) _ hfields

end

/-- A text with more behind it is a value where the rest is blank. -/
theorem loads_styled_append {j : Json F} (h : Distinct j) {t : List Char} (ht : Ends t) :
    loads format (styled format gap j ++ t) = if next t = none then some j else none := by
  rw [loads, readValue_styled format hgap h le_rfl ht]

/-- **A text reads back** as its value. -/
theorem loads_styled {j : Json F} (h : Distinct j) : loads format (styled format gap j) = some j := by
  have hread := loads_styled_append format hgap h (t := []) (by simp [Ends])
  rwa [List.append_nil] at hread

end Gap

/-- **A text reads back** as its value with the keys in order. -/
@[simp] theorem loads_dumps (j : Json F) : loads format (dumps format j) = some (sorted j) := by
  rw [dumps, ← styled_nil]
  exact loads_styled format (List.forall_mem_nil _) (canonical_sorted j).distinct

theorem dumps_inj {j k : Json F} : dumps format j = dumps format k ↔ sorted j = sorted k := by
  constructor
  · intro h
    have hloads := loads_dumps format j
    rw [h, loads_dumps] at hloads
    exact (Option.some.inj hloads).symm
  · intro h
    rw [dumps, dumps, h]

theorem readValue_brace_append {n : ℕ} {cs r t : List Char} {j : Json F}
    (h : readValue format n ('{' :: cs) = some (j, r)) :
    readValue format n ('{' :: cs ++ t) = some (j, r ++ t) := by
  cases n with
  | zero => simp [readValue] at h
  | succ n =>
    have hfields := (settled_readBody '}' (settled_readValue format n).2.2).map
      fun fields => obj (dictOf fields)
    have hbrace : isBlank '{' = false := by decide
    simp only [readValue, List.cons_append, next_cons hbrace, if_pos] at h ⊢
    exact (hfields cs j r h).2 t trivial

theorem dumps_obj (fields : List (String × Json F)) :
    ∃ cs, dumps format (obj fields) = '{' :: cs := by
  rw [dumps, sorted]
  cases sortedFields fields <;> exact ⟨_, by rw [render]⟩

/-- **No proper start of a dictionary's text** reads as a value. -/
theorem loads_styled_prefix {gap : List Char} (hgap : ∀ c ∈ gap, isBlank c = true)
    {fields : List (String × Json F)} (hdistinct : Distinct (obj fields)) {p t : List Char}
    (ht : t ≠ []) (h : styled format gap (obj fields) = p ++ t) : loads format p = none := by
  obtain ⟨cs, hcs⟩ : ∃ cs, styled format gap (obj fields) = '{' :: cs := by
    cases fields <;> exact ⟨_, by rw [styled]⟩
  cases p with
  | nil => rfl
  | cons c p =>
    obtain rfl : c = '{' := by
      rw [hcs] at h
      exact (List.cons.inj h).1.symm
    -- A value read of the start would be read of the whole text, and leave its end.
    have hnone : readValue format (2 * ('{' :: p).length + 1) ('{' :: p) = none := by
      by_contra hsome
      obtain ⟨⟨j, r⟩, hread⟩ := Option.ne_none_iff_exists'.mp hsome
      have hfuel : 2 * ('{' :: p).length + 1 ≤ 2 * ('{' :: p ++ t).length + 1 := by
        rw [List.length_append]
        omega
      have hstable := ((readValue_stable format (2 * ('{' :: p ++ t).length + 1)
        (2 * ('{' :: p).length + 1) ('{' :: p)).1 hfuel le_rfl).trans hread
      have hlong := readValue_brace_append format (t := t) hstable
      have hwhole := readValue_styled format hgap hdistinct (n := 2 * ('{' :: p ++ t).length + 1)
        (t := []) (by rw [← h, List.append_nil]) (by simp [Ends])
      rw [List.append_nil, h, hlong] at hwhole
      simp_all
    rw [loads, hnone]

theorem loads_prefix {fields : List (String × Json F)} {p t : List Char} (ht : t ≠ [])
    (h : dumps format (obj fields) = p ++ t) : loads format p = none := by
  rw [dumps, ← styled_nil, sorted] at h
  exact loads_styled_prefix format (List.forall_mem_nil _)
    (canonical_sorted (obj fields)).distinct ht h

end Json

end Veridex.Lib
