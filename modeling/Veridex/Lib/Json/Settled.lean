import Veridex.Lib.Json.Reader

/-!
# What the reader takes of a text

`Settled p read`: what `read` takes of a text is a nonempty start of it, and is taken of every
longer text too, where the rest it leaves is as `p` says. A number needs a character after it that
ends it (`StopsNumber`); whatever has a closing character needs nothing.

Results: `settled_readValue`, for every fuel, and `readValue_stable`: fuel does not matter once it is
twice the length of the text and more.
-/

namespace Veridex.Lib

namespace Json

variable {F : Type}

/-- A reader takes a nonempty start of the text, and takes it of every longer text too where what it
leaves is as `p` says. -/
def Settled {α : Type} (p : List Char → Prop) (read : Reader α) : Prop :=
  ∀ s v r, read s = some (v, r) → r.length < s.length ∧
    ∀ t, p r → read (s ++ t) = some (v, r ++ t)

/-! ## Numbers -/

/-- The text begins with a character of a kind. -/
def Heads (p : Char → Prop) : List Char → Prop
  | [] => False
  | c :: _ => p c

/-- The character ends a number. -/
def StopsNumber (c : Char) : Prop := digitOf c = none ∧ c ≠ '.' ∧ c ≠ 'e' ∧ c ≠ 'E'

theorem Heads.ne_nil {p : Char → Prop} {s : List Char} (h : Heads p s) : s ≠ [] := by
  rintro rfl
  exact h

theorem spanDigits_append {t : List Char} : ∀ {s : List Char}, (spanDigits s).2 ≠ [] →
    spanDigits (s ++ t) = ((spanDigits s).1, (spanDigits s).2 ++ t)
  | [], h => by simp [spanDigits] at h
  | c :: cs, h => by
    cases hc : digitOf c with
    | none => simp [spanDigits, hc]
    | some d =>
      simp only [spanDigits, hc, List.cons_append] at h ⊢
      rw [spanDigits_append h]

theorem readExpSign_append {s t : List Char} (h : s ≠ []) :
    readExpSign (s ++ t) = ((readExpSign s).1, (readExpSign s).2 ++ t) := by
  cases s with
  | nil => exact absurd rfl h
  | cons c cs =>
    rw [List.cons_append, readExpSign, readExpSign]
    split_ifs <;> rfl

theorem readExponent_append {s t : List Char} (h : Heads StopsNumber (readExponent s).2) :
    readExponent (s ++ t) = ((readExponent s).1, (readExponent s).2 ++ t) ∧
      Heads (fun c => digitOf c = none ∧ c ≠ '.') s := by
  cases s with
  | nil => simp [readExponent, Heads] at h
  | cons c cs =>
    rw [List.cons_append]
    by_cases he : (c = 'e' ∨ c = 'E') ∧ (spanDigits (readExpSign cs).2).1 ≠ []
    · rw [readExponent, dif_pos he] at h
      have hcs : cs ≠ [] := by
        rintro rfl
        simp [readExpSign, spanDigits] at he
      have hspan := spanDigits_append (t := t) h.ne_nil
      have hsign := readExpSign_append (t := t) hcs
      refine ⟨?_, ?_⟩
      · simp [readExponent, he, hsign, hspan]
      · rcases he.1 with rfl | rfl
        · exact ⟨by decide, by decide⟩
        · exact ⟨by decide, by decide⟩
    · have hread : readExponent (c :: cs) = (none, c :: cs) := by rw [readExponent, dif_neg he]
      rw [hread] at h ⊢
      have hhead : ¬ (c = 'e' ∨ c = 'E') := fun hc => hc.elim h.2.2.1 h.2.2.2
      rw [readExponent, dif_neg fun h' => hhead h'.1]
      exact ⟨rfl, h.1, h.2.1⟩

theorem readFraction_append {s t : List Char}
    (h : Heads (fun c => digitOf c = none ∧ c ≠ '.') (readFraction s).2) :
    readFraction (s ++ t) = ((readFraction s).1, (readFraction s).2 ++ t) ∧
      Heads (fun c => digitOf c = none) s := by
  cases s with
  | nil => simp [readFraction, Heads] at h
  | cons c cs =>
    rw [List.cons_append]
    by_cases hf : c = '.' ∧ (spanDigits cs).1 ≠ []
    · rw [readFraction, dif_pos hf] at h
      have hspan := spanDigits_append (t := t) h.ne_nil
      refine ⟨?_, ?_⟩
      · simp [readFraction, hf, hspan]
      · rw [hf.1]
        exact show digitOf '.' = none by decide
    · have hread : readFraction (c :: cs) = (none, c :: cs) := by rw [readFraction, dif_neg hf]
      rw [hread] at h ⊢
      rw [readFraction, dif_neg fun h' => h.2 h'.1]
      exact ⟨rfl, h.1⟩

theorem readWhole_append {s r t : List Char} {n : ℕ} (h : readWhole s = some (n, r))
    (hr : Heads (fun c => digitOf c = none) r) : readWhole (s ++ t) = some (n, r ++ t) := by
  cases s with
  | nil => simp [readWhole, spanDigits] at h
  | cons c cs =>
    cases hc : digitOf c with
    | none => simp [readWhole, spanDigits, hc] at h
    | some d =>
      simp only [readWhole, spanDigits, hc, List.cons_append] at h ⊢
      split_ifs at h ⊢ with hd
      · cases h
        rfl
      · cases h
        rw [spanDigits_append hr.ne_nil]

theorem length_spanDigits : ∀ s : List Char,
    (spanDigits s).1.length + (spanDigits s).2.length = s.length
  | [] => rfl
  | c :: cs => by
    cases hc : digitOf c with
    | none => simp [spanDigits, hc]
    | some d =>
      simp only [spanDigits, hc, List.length_cons]
      have := length_spanDigits cs
      omega

theorem length_readExpSign (s : List Char) : (readExpSign s).2.length ≤ s.length := by
  cases s with
  | nil => rfl
  | cons c cs =>
    rw [readExpSign]
    split_ifs <;> simp

theorem length_readExponent (s : List Char) : (readExponent s).2.length ≤ s.length := by
  cases s with
  | nil => rfl
  | cons c cs =>
    rw [readExponent]
    split_ifs with h
    · have hspan := length_spanDigits (readExpSign cs).2
      have hsign := length_readExpSign cs
      simp only [List.length_cons]
      omega
    · rfl

theorem length_readFraction (s : List Char) : (readFraction s).2.length ≤ s.length := by
  cases s with
  | nil => rfl
  | cons c cs =>
    rw [readFraction]
    split_ifs with h
    · have hspan := length_spanDigits cs
      simp only [List.length_cons]
      omega
    · rfl

theorem length_readWhole {s r : List Char} {n : ℕ} (h : readWhole s = some (n, r)) :
    r.length < s.length := by
  cases s with
  | nil => simp [readWhole, spanDigits] at h
  | cons c cs =>
    cases hc : digitOf c with
    | none => simp [readWhole, spanDigits, hc] at h
    | some d =>
      have hspan := length_spanDigits cs
      simp only [readWhole, spanDigits, hc] at h
      split_ifs at h with hd
      · cases h
        simp
      · cases h
        simp only [List.length_cons]
        omega

theorem length_readSign (s : List Char) : (readSign s).2.length ≤ s.length := by
  cases s with
  | nil => rfl
  | cons c cs =>
    rw [readSign]
    split_ifs <;> simp

theorem readSign_append {s t : List Char} (h : s ≠ []) :
    readSign (s ++ t) = ((readSign s).1, (readSign s).2 ++ t) := by
  cases s with
  | nil => exact absurd rfl h
  | cons c cs =>
    rw [List.cons_append, readSign, readSign]
    split_ifs <;> rfl

variable (format : FloatFormat F)

theorem settled_readNumber : Settled (Heads StopsNumber) (readNumber format) := by
  intro s v r h
  obtain ⟨⟨whole, rest⟩, hwhole, h⟩ := Option.map_eq_some_iff.mp h
  cases h
  have hsign := length_readSign s
  have hw := length_readWhole hwhole
  have hf := length_readFraction rest
  have he := length_readExponent (readFraction rest).2
  refine ⟨by omega, ?_⟩
  intro t hr
  have hs : s ≠ [] := by
    rintro rfl
    simp [readSign] at hw
  obtain ⟨hexp, hr'⟩ := readExponent_append (t := t) hr
  obtain ⟨hfrac, hr''⟩ := readFraction_append (t := t) hr'
  have hwhole' := readWhole_append (t := t) hwhole hr''
  simp [readNumber, readSign_append hs, hwhole', hfrac, hexp]

/-! ## Strings -/

theorem readUnits_short {e : Char} {cs : List Char} (h : e ≠ 'u') :
    readUnits ('\\' :: e :: cs) = (do
      let unit ← shortOf e
      let (units, rest) ← readUnits cs
      return (unit :: units, rest)) := by
  rw [readUnits]
  rintro a b c d cs' rfl
  exact absurd rfl h

theorem readUnits_plain {c : Char} {cs : List Char} (hquote : c ≠ '"') (hslash : c ≠ '\\')
    (hcontrol : 32 ≤ c.toNat) :
    readUnits (c :: cs) = (readUnits cs).map fun read => (c.toNat :: read.1, read.2) := by
  rw [readUnits]
  · rw [if_neg (by omega)]
    cases readUnits cs <;> rfl
  · simpa using hquote
  · intro a b c' d cs' h
    simp [hslash] at h
  · intro e cs' h
    simp [hslash] at h

theorem settled_readUnits : Settled (fun _ => True) readUnits := by
  suffices h : ∀ s us r, readUnits s = some (us, r) →
      r.length < s.length ∧ ∀ t, readUnits (s ++ t) = some (us, r ++ t) from
    fun s us r hread => ⟨(h s us r hread).1, fun t _ => (h s us r hread).2 t⟩
  intro s
  fun_induction readUnits s with
  | case1 => simp
  | case2 rest =>
    rintro us r ⟨⟩
    exact ⟨by simp, fun t => rfl⟩
  | case3 a b c d cs ih =>
    intro us r h
    simp only [Option.bind_eq_bind, Option.bind_eq_some_iff] at h
    obtain ⟨unit, hunit, ⟨units, rest⟩, hunits, ⟨⟩⟩ := h
    obtain ⟨hlen, happend⟩ := ih units rest hunits
    refine ⟨by simp only [List.length_cons]; omega, fun t => ?_⟩
    simp [readUnits, hunit, happend]
  | case4 e cs hne ih =>
    intro us r h
    simp only [Option.bind_eq_bind, Option.bind_eq_some_iff] at h
    obtain ⟨unit, hunit, ⟨units, rest⟩, hunits, ⟨⟩⟩ := h
    obtain ⟨hlen, happend⟩ := ih units rest hunits
    have hu : e ≠ 'u' := by
      rintro rfl
      simp [shortOf] at hunit
    refine ⟨by simp only [List.length_cons]; omega, fun t => ?_⟩
    simp [readUnits_short hu, hunit, happend]
  | case5 c cs hquote hescape hshort hcontrol => simp
  | case6 c cs hquote hescape hshort hcontrol ih =>
    intro us r h
    simp only [Option.bind_eq_bind, Option.bind_eq_some_iff] at h
    obtain ⟨⟨units, rest⟩, hunits, ⟨⟩⟩ := h
    obtain ⟨hlen, happend⟩ := ih units rest hunits
    have hslash : c ≠ '\\' := by
      rintro rfl
      cases cs with
      | nil => simp [readUnits] at hunits
      | cons e cs => exact hshort e cs rfl rfl
    refine ⟨by simp only [List.length_cons]; omega, fun t => ?_⟩
    rw [List.cons_append, readUnits_plain (by simpa using hquote) hslash (by omega), happend]
    rfl

theorem settled_readString : Settled (fun _ => True) readString := by
  intro s v r h
  obtain ⟨⟨units, rest⟩, hunits, hr⟩ := Option.map_eq_some_iff.mp h
  cases hr
  obtain ⟨hlen, happend⟩ := settled_readUnits s units r hunits
  refine ⟨hlen, fun t ht => ?_⟩
  rw [readString, happend t ht]
  rfl

/-! ## Tokens and scalars -/

theorem settled_next : Settled (fun _ => True) next := by
  intro s c r h
  fun_induction next s with
  | case1 => simp at h
  | case2 c' cs hblank ih =>
    obtain ⟨hlen, happend⟩ := ih h
    exact ⟨by simp only [List.length_cons]; omega, fun t ht => by simp [next, hblank, happend t ht]⟩
  | case3 c' cs hblank =>
    cases h
    exact ⟨by simp, fun t _ => by simp [next, hblank]⟩

/-- A number begins as nothing else does. -/
theorem readScalar_of_readNumber {s : List Char} {read : Json F × List Char}
    (h : readNumber format s = some read) : readScalar format s = some read := by
  fun_cases readScalar format s with
  | case8 => exact h
  | _ => simp [readNumber, readSign, readWhole, spanDigits, digitOf] at h

theorem settled_readScalar : Settled (Heads StopsNumber) (readScalar format) := by
  intro s v r h
  fun_cases readScalar format s with
  | case1 cs =>
    rw [readScalar] at h
    obtain ⟨⟨text, rest⟩, htext, hr⟩ := Option.map_eq_some_iff.mp h
    cases hr
    obtain ⟨hlen, happend⟩ := settled_readString cs text r htext
    refine ⟨by simp only [List.length_cons]; omega, fun t _ => ?_⟩
    rw [List.cons_append, readScalar, happend t trivial]
    rfl
  | case8 =>
    rw [readScalar] at h
    · obtain ⟨hlen, happend⟩ := settled_readNumber format s v r h
      exact ⟨hlen, fun t ht => readScalar_of_readNumber format (happend t ht)⟩
    all_goals assumption
  | _ =>
    cases h
    exact ⟨by simp only [List.length_cons]; omega, fun t _ => rfl⟩

/-- What follows a token that is no part of a number. -/
theorem heads_of_next {s r : List Char} {c : Char} (hc : StopsNumber c) (h : next s = some (c, r)) :
    Heads StopsNumber s := by
  cases s with
  | nil => simp [next] at h
  | cons c' cs =>
    rw [next] at h
    split_ifs at h with hblank
    · simp only [isBlank, Bool.or_eq_true, decide_eq_true_eq] at hblank
      rcases hblank with ((rfl | rfl) | rfl) | rfl <;> exact ⟨by decide, by decide⟩
    · cases h
      exact hc


/-! ## Values -/

section

variable {α β : Type} {p q : List Char → Prop}

/-- Two readers in a row, where the second finds what the first needs after it. -/
theorem Settled.thenRead {first : Reader α} {second : α → Reader β} (hfirst : Settled p first)
    (hsecond : ∀ a, Settled q (second a))
    (hmiddle : ∀ a s v r, second a s = some (v, r) → p s) : Settled q (thenRead first second) := by
  intro s v r h
  obtain ⟨⟨a, middle⟩, ha, hv⟩ := Option.bind_eq_some_iff.mp h
  obtain ⟨hlen, happend⟩ := hfirst s a middle ha
  obtain ⟨hlen', happend'⟩ := hsecond a middle v r hv
  refine ⟨by omega, fun t ht => ?_⟩
  rw [Json.thenRead, happend t (hmiddle a middle v r hv)]
  exact happend' t ht

theorem Settled.map {read : Reader α} (hread : Settled p read) (f : α → β) :
    Settled p fun cs => (read cs).map fun x => (f x.1, x.2) := by
  intro s v r h
  obtain ⟨⟨a, rest⟩, ha, hr⟩ := Option.map_eq_some_iff.mp h
  cases hr
  obtain ⟨hlen, happend⟩ := hread s a rest ha
  refine ⟨hlen, fun t ht => ?_⟩
  simp [happend t ht]

theorem settled_token (c : Char) : Settled (fun _ => True) (token c) := by
  intro s v r h
  unfold token at h
  split at h
  · next c' rest hnext =>
    split_ifs at h with hc
    obtain ⟨hlen, happend⟩ := settled_next s c' rest hnext
    cases h
    refine ⟨hlen, fun t ht => ?_⟩
    rw [token, happend t ht]
    simp [hc]
  · simp at h

theorem settled_readMore {close : Char} {more : Reader (List α)}
    (hmore : Settled (fun _ => True) more) (element : α) :
    Settled (fun _ => True) (readMore close more element) := by
  intro s v r h
  unfold readMore at h
  split at h
  · next c rest hnext =>
    obtain ⟨hlen, happend⟩ := settled_next s c rest hnext
    split_ifs at h with hc hcomma
    · cases h
      refine ⟨hlen, fun t ht => ?_⟩
      rw [readMore, happend t ht]
      simp [hc]
    · obtain ⟨⟨elements, rest'⟩, helements, hr⟩ := Option.map_eq_some_iff.mp h
      cases hr
      obtain ⟨hlen', happend'⟩ := hmore rest elements rest' helements
      refine ⟨hlen'.trans hlen, fun t ht => ?_⟩
      have hcomma' : ¬ ',' = close := hcomma ▸ hc
      rw [readMore, happend t trivial]
      simp [hcomma, hcomma', happend' t trivial]
  · simp at h

theorem settled_readBody (close : Char) {elements : Reader (List α)}
    (helements : Settled (fun _ => True) elements) :
    Settled (fun _ => True) (readBody close elements) := by
  intro s v r h
  unfold readBody at h
  split at h
  · next c rest hnext =>
    obtain ⟨hlen, happend⟩ := settled_next s c rest hnext
    split_ifs at h with hc
    · cases h
      refine ⟨hlen, fun t ht => ?_⟩
      rw [readBody, happend t ht]
      simp [hc]
    · obtain ⟨hlen', happend'⟩ := helements s v r h
      refine ⟨hlen', fun t ht => ?_⟩
      rw [readBody, happend t trivial]
      simp [hc, happend' t trivial]
  · simp at h

theorem heads_of_readMore {close : Char} (hclose : StopsNumber close) {more : Reader (List α)}
    {element : α} {s r : List Char} {v : List α} (h : readMore close more element s = some (v, r)) :
    Heads StopsNumber s := by
  unfold readMore at h
  split at h
  · next c rest hnext =>
    split_ifs at h with hc hcomma
    · exact heads_of_next (hc ▸ hclose) hnext
    · refine heads_of_next (hcomma ▸ ?_) hnext
      exact ⟨by decide, by decide⟩
  · simp at h

end

theorem settled_readField {value : Reader (Json F)} (hvalue : Settled (Heads StopsNumber) value) :
    Settled (Heads StopsNumber) (readField value) := by
  refine (settled_token _).thenRead (fun _ => ?_) fun _ _ _ _ _ => trivial
  refine settled_readString.thenRead (fun key => ?_) fun _ _ _ _ _ => trivial
  refine (settled_token _).thenRead (fun _ => ?_) fun _ _ _ _ _ => trivial
  exact hvalue.map fun v => (key, v)

/-- **What is read of a text** is a start of it, whatever the fuel. -/
theorem settled_readValue : ∀ n, Settled (Heads StopsNumber) (readValue format n) ∧
    Settled (fun _ => True) (readItems format n) ∧ Settled (fun _ => True) (readFields format n)
  | 0 => ⟨fun s v r h => by simp [readValue] at h, fun s v r h => by simp [readItems] at h,
      fun s v r h => by simp [readFields] at h⟩
  | n + 1 => by
    obtain ⟨hvalue, hitems, hfields⟩ := settled_readValue n
    refine ⟨?_, ?_, ?_⟩
    · intro s v r h
      rw [readValue] at h
      split at h
      · simp at h
      · next c rest hnext =>
        obtain ⟨hlen, happend⟩ := settled_next s c rest hnext
        split_ifs at h with hobj harr
        · obtain ⟨hlen', happend'⟩ :=
            (settled_readBody '}' hfields).map (fun fields => obj (dictOf fields)) rest v r h
          refine ⟨by omega, fun t _ => ?_⟩
          simpa [readValue, happend t trivial, hobj] using happend' t trivial
        · obtain ⟨hlen', happend'⟩ := (settled_readBody ']' hitems).map arr rest v r h
          refine ⟨by omega, fun t _ => ?_⟩
          simpa [readValue, happend t trivial, harr] using happend' t trivial
        · obtain ⟨hlen', happend'⟩ := settled_readScalar format (c :: rest) v r h
          refine ⟨by simp only [List.length_cons] at hlen'; omega, fun t ht => ?_⟩
          simpa [readValue, happend t trivial, hobj, harr] using happend' t ht
    · exact hvalue.thenRead (settled_readMore hitems) fun item s v r h =>
        heads_of_readMore ⟨by decide, by decide⟩ h
    · exact (settled_readField hvalue).thenRead (settled_readMore hfields) fun item s v r h =>
        heads_of_readMore ⟨by decide, by decide⟩ h

/-! ## Fuel -/

theorem thenRead_congr {α β : Type} {first first' : Reader α} {second second' : α → Reader β}
    {s : List Char} (hfirst : first s = first' s)
    (hsecond : ∀ a r, first s = some (a, r) → second a r = second' a r) :
    thenRead first second s = thenRead first' second' s := by
  unfold thenRead
  rw [← hfirst]
  cases h : first s with
  | none => rfl
  | some read => exact hsecond read.1 read.2 h

theorem readMore_congr {α : Type} {close : Char} {more more' : Reader (List α)} {element : α}
    {s : List Char} (h : ∀ r, r.length < s.length → more r = more' r) :
    readMore close more element s = readMore close more' element s := by
  unfold readMore
  cases hnext : next s with
  | none => rfl
  | some read =>
    obtain ⟨c, rest⟩ := read
    simp only [h rest (settled_next s c rest hnext).1]

theorem readBody_congr {α : Type} {close : Char} {elements elements' : Reader (List α)}
    {s : List Char} (h : elements s = elements' s) :
    readBody close elements s = readBody close elements' s := by
  unfold readBody
  rw [h]

theorem readField_congr {value value' : Reader (Json F)} {s : List Char}
    (h : ∀ r, r.length < s.length → value r = value' r) : readField value s = readField value' s := by
  unfold readField
  refine thenRead_congr rfl fun _ r₁ h₁ => thenRead_congr rfl fun _ r₂ h₂ =>
    thenRead_congr rfl fun _ r₃ h₃ => ?_
  have hlen₁ := (settled_token _ s _ r₁ h₁).1
  have hlen₂ := (settled_readString r₁ _ r₂ h₂).1
  have hlen₃ := (settled_token _ r₂ _ r₃ h₃).1
  simp only [h r₃ (by omega)]

/-- **Fuel does not matter** once it is twice the length of the text and more. -/
theorem readValue_stable : ∀ n m (s : List Char),
    (2 * s.length + 1 ≤ n → 2 * s.length + 1 ≤ m → readValue format n s = readValue format m s) ∧
    (2 * s.length + 2 ≤ n → 2 * s.length + 2 ≤ m → readItems format n s = readItems format m s) ∧
    (2 * s.length + 2 ≤ n → 2 * s.length + 2 ≤ m → readFields format n s = readFields format m s)
  | 0, _, s => ⟨fun h => by omega, fun h => by omega, fun h => by omega⟩
  | _ + 1, 0, s => ⟨fun _ h => by omega, fun _ h => by omega, fun _ h => by omega⟩
  | n + 1, m + 1, s => by
    refine ⟨fun hn hm => ?_, fun hn hm => ?_, fun hn hm => ?_⟩
    · rw [readValue, readValue]
      cases hnext : next s with
      | none => rfl
      | some read =>
        obtain ⟨c, rest⟩ := read
        have hlen := (settled_next s c rest hnext).1
        obtain ⟨-, hitems, hfields⟩ := readValue_stable n m rest
        simp only [readBody_congr (hitems (by omega) (by omega)),
          readBody_congr (hfields (by omega) (by omega))]
    · rw [readItems, readItems]
      refine thenRead_congr ((readValue_stable n m s).1 (by omega) (by omega)) fun a r h => ?_
      have hlen := ((settled_readValue format n).1 s a r h).1
      exact readMore_congr fun r' hr' => (readValue_stable n m r').2.1 (by omega) (by omega)
    · rw [readFields, readFields]
      refine thenRead_congr ?_ fun a r h => ?_
      · exact readField_congr fun r hr => (readValue_stable n m r).1 (by omega) (by omega)
      · have hlen := (settled_readField (settled_readValue format n).1 s a r h).1
        exact readMore_congr fun r' hr' => (readValue_stable n m r').2.2 (by omega) (by omega)

end Json

end Veridex.Lib
