import Veridex.Lib.Json.Spaced
import Veridex.Py.Text

/-!
# Texts in files

A file is its bytes. `encode` and `decode` are the UTF-8 of `str.encode` and `bytes.decode`; a reader
of a text that turns `\r\n` into `\n` splits it into the same lines.

Results: `decode_encode`, `encode_inj`, and `fileLines_joinLines`: lines that hold no break read back.
-/

namespace Veridex.Py

/-- The text of `json.dumps` is one line. -/
theorem isLineBreak_spaced {F : Type} (format : Lib.Json.FloatFormat F) (j : Lib.Json F) :
    ∀ c ∈ Lib.Json.spaced format j, isLineBreak c = false := by
  intro c hc
  obtain ⟨hlow, hhigh⟩ := Lib.Json.spaced_printable format j c hc
  have hne : c.toNat ≠ 0x85 ∧ c.toNat ≠ 0x2028 ∧ c.toNat ≠ 0x2029 := by omega
  simp only [isLineBreak, hne, decide_false, Bool.or_false, Bool.or_eq_false_iff,
    Bool.and_eq_false_iff, decide_eq_false_iff_not]
  omega

/-- `text.encode("utf-8")`. -/
def encode (text : List Char) : List UInt8 := text.flatMap String.utf8EncodeChar

/-- `raw.decode("utf-8")`. -/
def decode (raw : List UInt8) : Except PyExc (List Char) :=
  match raw.toByteArray.utf8Decode? with
  | some text => .ok text.toList
  | none => .error ⟨.valueError, "UnicodeDecodeError"⟩

@[simp] theorem decode_encode (text : List Char) : decode (encode text) = .ok text := by
  have h : (encode text).toByteArray = text.utf8Encode := rfl
  simp [decode, h]

theorem encode_append (s t : List Char) : encode (s ++ t) = encode s ++ encode t :=
  List.flatMap_append ..

theorem encode_inj {s t : List Char} : encode s = encode t ↔ s = t := by
  constructor
  · intro h
    have hdecode := decode_encode s
    rw [h, decode_encode] at hdecode
    exact (Except.ok.inj hdecode).symm
  · rintro rfl
    rfl

/-- `"\n".join(lines) + "\n"`. -/
def joinLines (lines : List (List Char)) : List Char := ['\n'].intercalate lines ++ ['\n']

/-- The lines of a file that hold anything. -/
def fileLines (text : List Char) : List (List Char) := (splitlines text).filter (!·.isEmpty)

@[simp] theorem joinLines_singleton (line : List Char) : joinLines [line] = line ++ ['\n'] := by
  simp [joinLines, List.intercalate]

theorem joinLines_cons {line : List Char} {lines : List (List Char)} (h : lines ≠ []) :
    joinLines (line :: lines) = line ++ '\n' :: joinLines lines := by
  cases lines with
  | nil => exact absurd rfl h
  | cons next rest => simp [joinLines, List.intercalate]

/-- **Lines without a break** read back from the file they are joined in. -/
theorem fileLines_joinLines {lines : List (List Char)}
    (hbreak : ∀ line ∈ lines, ∀ c ∈ line, isLineBreak c = false) (hne : ∀ line ∈ lines, line ≠ []) :
    fileLines (joinLines lines) = lines := by
  induction lines with
  | nil => simp [fileLines, joinLines, splitlines, isLineBreak]
  | cons line rest ih =>
    have hline := splitlines_line (hbreak line List.mem_cons_self)
    have hkeep : (!line.isEmpty) = true := by simp [hne line List.mem_cons_self]
    have ih := ih (fun l hl => hbreak l (List.mem_cons_of_mem _ hl))
      fun l hl => hne l (List.mem_cons_of_mem _ hl)
    cases rest with
    | nil =>
      rw [joinLines_singleton, fileLines, hline, List.filter_cons_of_pos (p := fun l : List Char => !l.isEmpty) hkeep]
      rfl
    | cons next rest =>
      rw [joinLines_cons (List.cons_ne_nil next rest), fileLines, hline,
        List.filter_cons_of_pos (p := fun l : List Char => !l.isEmpty) hkeep]
      exact congrArg (line :: ·) ih

end Veridex.Py
