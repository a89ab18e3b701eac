import Veridex.Lib.Run
import Veridex.Py.TextFile
import Veridex.Runtime.RuntimeStore

/-!
# What the spool loses

The cursor counts WAL lines, so it is a position only while lines are committed in their order and
every line is a row. Where they are, the rows before an object's count are stored, and the ones after
it are what the object has out and pending, in order (`Account`).

* `Orderly`: an operation that keeps the count a position.
* `spool_loses_nothing`: a run of such operations; `cancelled_batch_lost`: a run that is not.
-/

namespace Veridex.Runtime

open Veridex.Py Veridex.Lib

variable {format : Json.FloatFormat PyFloat}

/-! ## Reading the WAL back -/

theorem distinct_fields (event : RuntimeEvent) (uuid : String) :
    Json.Distinct (.obj (event.row uuid).fields : Decoded) := by
  have htext : ∀ text, Json.Distinct (optionalText text) := by
    intro text
    cases text <;> simp [optionalText, Json.Distinct]
  have hpayload := event.distinct
  simp only [RuntimeEventRow.fields, RuntimeEvent.row, Json.Distinct, Json.DistinctFields,
    List.map_cons, List.map_nil]
  refine ⟨by decide, trivial, trivial, htext _, htext _, trivial, trivial, trivial, ?_, trivial⟩
  exact hpayload

theorem rowOfLine_fields (event : RuntimeEvent) (uuid : String) :
    rowOfLine (.obj (event.row uuid).fields) = .ok (event.row uuid) := by
  have hpayload : (if Decoded.truthy (.obj event.payload) then (.obj event.payload : Decoded)
      else .obj []) = .obj event.payload := by
    cases event.payload <;> rfl
  have hread : rowOfLine (.obj (event.row uuid).fields) = .ok { event.row uuid with
    payload := if Decoded.truthy (.obj event.payload) then .obj event.payload else .obj [] } := rfl
  rw [hread, hpayload]
  rfl

/-- A row's line, cut: it is nothing, the start of a row, or a row without its newline. -/
inductive Torn (format : Json.FloatFormat PyFloat) : List Char → List RuntimeEventRow → Prop
  | clean : Torn format [] []
  | started (event : RuntimeEvent) (uuid : String) {start rest : List Char} (hstart : start ≠ [])
      (hrest : rest ≠ []) (hline : (event.row uuid).line format = start ++ rest) :
      Torn format start []
  | whole (event : RuntimeEvent) (uuid : String) :
      Torn format ((event.row uuid).line format) [event.row uuid]

/-- A line's first characters: they are the row itself, or no row. -/
theorem torn_take (event : RuntimeEvent) (uuid : String) (kept : ℕ) :
    ∃ extra, extra ⊆ [event.row uuid] ∧ Torn format (((event.row uuid).line format).take kept) extra := by
  have hcut := (List.take_append_drop kept ((event.row uuid).line format)).symm
  by_cases hstart : ((event.row uuid).line format).take kept = []
  · rw [hstart]
    exact ⟨[], List.nil_subset _, .clean⟩
  · by_cases hrest : ((event.row uuid).line format).drop kept = []
    · rw [hrest, List.append_nil] at hcut
      rw [← hcut]
      exact ⟨_, List.Subset.refl _, .whole event uuid⟩
    · exact ⟨[], List.nil_subset _, .started event uuid hstart hrest hcut⟩

/-- The text of some rows' lines. -/
def linesText (format : Json.FloatFormat PyFloat) (rows : List RuntimeEventRow) : List Char :=
  rows.flatMap fun row => row.line format ++ ['\n']

/-- A row that an event gave. -/
def IsEnqueued (row : RuntimeEventRow) : Prop := ∃ event uuid, row = RuntimeEvent.row event uuid

/-- A WAL of whole lines, and of a last one that is cut. -/
structure Holds (format : Json.FloatFormat PyFloat) (wal : List Char)
    (rows extra : List RuntimeEventRow) : Prop where
  enqueued : ∀ row ∈ rows, IsEnqueued row
  text : ∃ tail, Torn format tail extra ∧ wal = linesText format rows ++ tail

theorem strip_line {event : RuntimeEvent} {uuid : String} {start rest : List Char} (hstart : start ≠ [])
    (hline : (event.row uuid).line format = start ++ rest) :
    ∃ cut, (strip (String.ofList start)).toList ≠ [] ∧
      start = (strip (String.ofList start)).toList ++ cut := by
  obtain ⟨c, cs, rfl⟩ := List.exists_cons_of_ne_nil hstart
  obtain ⟨body, hbody⟩ := Json.spaced_obj format (event.row uuid).fields
  obtain rfl : c = '{' := by
    rw [RuntimeEventRow.line, hbody] at hline
    exact (List.cons.inj hline).1.symm
  have hbrace : isSpace '{' = false := by decide
  have hstrip : (strip (String.ofList ('{' :: cs))).toList = ('{' :: cs).rdropWhile isSpace := by
    rw [strip, String.toList_ofList, String.toList_ofList, List.dropWhile_cons, hbrace]
    rfl
  rw [hstrip]
  obtain ⟨cut, hcut⟩ := List.rdropWhile_prefix isSpace ('{' :: cs)
  refine ⟨cut, ?_, hcut.symm⟩
  intro hnil
  have hall := List.rdropWhile_eq_nil_iff.mp hnil '{' List.mem_cons_self
  rw [hbrace] at hall
  exact Bool.false_ne_true hall

theorem line_ne_nil (event : RuntimeEvent) (uuid : String) : (event.row uuid).line format ≠ [] := by
  obtain ⟨body, hbody⟩ := Json.spaced_obj format (event.row uuid).fields
  rw [RuntimeEventRow.line, hbody]
  exact List.cons_ne_nil _ _

/-- What a line is read as, after it is stripped. -/
theorem readWalRow_of_strip {line : List Char} {stripped : List Char}
    (h : (strip (String.ofList line)).toList = stripped) (hne : stripped ≠ []) :
    readWalRow format line = match Json.loads format stripped with
      | none => .ok none
      | some d => do return some (← rowOfLine d) := by
  rw [readWalRow, h]
  refine (if_neg hne).trans ?_
  cases Json.loads format stripped <;> rfl

theorem readWalRow_started {event : RuntimeEvent} {uuid : String} {start rest : List Char}
    (hstart : start ≠ []) (hrest : rest ≠ []) (hline : (event.row uuid).line format = start ++ rest) :
    readWalRow format start = .ok none := by
  obtain ⟨cut, hne, hcut⟩ := strip_line hstart hline
  rw [readWalRow_of_strip rfl hne]
  have hlong : cut ++ rest ≠ [] := fun hnil => hrest (List.append_eq_nil_iff.mp hnil).2
  have hnone := Json.loads_spaced_prefix format (distinct_fields event uuid) hlong
    (p := (strip (String.ofList start)).toList) (by
      rw [← List.append_assoc, ← hcut]
      exact hline)
  rw [hnone]

theorem readWalRow_line (event : RuntimeEvent) (uuid : String) :
    readWalRow format ((event.row uuid).line format) = .ok (some (event.row uuid)) := by
  have hstripped : (strip (String.ofList ((event.row uuid).line format))).toList =
      (event.row uuid).line format := by
    obtain ⟨first, hfirst⟩ := Json.spaced_obj format (event.row uuid).fields
    obtain ⟨last, hlast⟩ := Json.spaced_obj_last format (event.row uuid).fields
    have hspace : isSpace '{' = false ∧ isSpace '}' = false := by decide
    rw [strip, String.toList_ofList, String.toList_ofList, RuntimeEventRow.line, hfirst,
      List.dropWhile_cons, hspace.1, if_neg Bool.false_ne_true, ← hfirst, hlast,
      List.rdropWhile_concat_neg _ _ _ (by simp [hspace.2])]
  have hread := Json.loads_spaced format (distinct_fields event uuid)
  rw [readWalRow_of_strip hstripped (line_ne_nil event uuid), RuntimeEventRow.line, hread]
  simp only [rowOfLine_fields]
  rfl

theorem line_unbroken (row : RuntimeEventRow) : ∀ c ∈ row.line format, isLineBreak c = false :=
  isLineBreak_spaced _ _

theorem splitlines_linesText {rows : List RuntimeEventRow} (rest : List Char) :
    splitlines (linesText format rows ++ rest) = rows.map (·.line format) ++ splitlines rest := by
  induction rows with
  | nil => rfl
  | cons row rows ih =>
    have hcons : linesText format (row :: rows) ++ rest =
        row.line format ++ '\n' :: (linesText format rows ++ rest) := by
      simp [linesText]
    rw [hcons, splitlines_line (line_unbroken row), ih]
    rfl

theorem Torn.read {tail : List Char} {extra : List RuntimeEventRow} (h : Torn format tail extra) :
    ∃ found, (splitlines tail).mapM (readWalRow format) = .ok found ∧ found.filterMap id = extra := by
  cases h with
  | clean => exact ⟨[], rfl, rfl⟩
  | started event uuid hstart hrest hline =>
    refine ⟨[none], ?_, rfl⟩
    rw [splitlines_last (fun c hc => line_unbroken _ c (hline ▸ List.mem_append_left _ hc)) hstart,
      List.mapM_cons, readWalRow_started hstart hrest hline]
    rfl
  | whole event uuid =>
    refine ⟨[some (event.row uuid)], ?_, rfl⟩
    rw [splitlines_last (line_unbroken _) (line_ne_nil event uuid), List.mapM_cons, readWalRow_line]
    rfl

/-- **The WAL is read back** as its rows. -/
theorem Holds.readWalRows {wal : List Char} {rows extra : List RuntimeEventRow}
    (h : Holds format wal rows extra) : readWalRows format wal = .ok (rows ++ extra) := by
  obtain ⟨tail, htorn, rfl⟩ := h.text
  obtain ⟨found, hfound, hextra⟩ := htorn.read
  have hrows : ∀ rows : List RuntimeEventRow, (∀ row ∈ rows, IsEnqueued row) →
      (rows.map (·.line format) ++ splitlines tail).mapM (readWalRow format) =
        .ok (rows.map some ++ found) := by
    intro rows
    induction rows with
    | nil => exact fun _ => hfound
    | cons row rows ih =>
      intro henqueued
      obtain ⟨event, uuid, rfl⟩ := henqueued _ List.mem_cons_self
      have hrest := ih fun row hrow => henqueued row (List.mem_cons_of_mem _ hrow)
      rw [List.map_cons, List.cons_append, List.mapM_cons, readWalRow_line, hrest]
      rfl
  rw [Runtime.readWalRows, splitlines_linesText, hrows rows h.enqueued]
  have hfilter : (rows.map some).filterMap id = rows := by simp
  exact congrArg Except.ok (by rw [List.filterMap_append, hfilter, hextra])

/-- A WAL that a written line does not run on from. -/
def Clean (wal : List Char) : Prop := wal = [] ∨ wal.getLast? = some '\n'

theorem Torn.unbroken {tail : List Char} {extra : List RuntimeEventRow} (h : Torn format tail extra) :
    '\n' ∉ tail := by
  have hline : ∀ row : RuntimeEventRow, '\n' ∉ row.line format := by
    intro row hmem
    have hbreak := line_unbroken row _ hmem
    revert hbreak
    decide
  cases h with
  | clean => exact List.not_mem_nil
  | started event uuid hstart hrest hcut =>
    intro hmem
    exact hline (event.row uuid) (hcut ▸ List.mem_append_left _ hmem)
  | whole event uuid => exact hline _

theorem Holds.clean {wal : List Char} {rows extra : List RuntimeEventRow}
    (h : Holds format wal rows extra) (hclean : Clean wal) :
    extra = [] ∧ wal = linesText format rows := by
  obtain ⟨tail, htorn, rfl⟩ := h.text
  have hnil : tail = [] := by
    by_contra hne
    obtain ⟨c, hc⟩ : ∃ c, tail.getLast? = some c := ⟨_, List.getLast?_eq_some_getLast hne⟩
    rcases hclean with hwal | hwal
    · exact hne (List.append_eq_nil_iff.mp hwal).2
    · rw [List.getLast?_append, hc, Option.some_or, Option.some.injEq] at hwal
      exact htorn.unbroken (hwal ▸ List.mem_of_getLast? hc)
  subst hnil
  refine ⟨?_, List.append_nil _⟩
  cases htorn with
  | clean => rfl
  | started _ _ hstart => exact absurd rfl hstart

/-! ## The store -/

theorem nodup_appendRuntimeEvents {rows : List RuntimeEventRow} : ∀ {stored : List RuntimeEventRow},
    (stored.map (·.eventUuid)).Nodup → ((appendRuntimeEvents stored rows).map (·.eventUuid)).Nodup := by
  induction rows with
  | nil => exact id
  | cons row rows ih =>
    intro stored h
    rw [appendRuntimeEvents, List.foldl_cons, ← appendRuntimeEvents]
    apply ih
    split_ifs with hmem
    · exact h
    · rw [List.map_append, List.map_singleton, ← List.concat_eq_append]
      exact List.Nodup.concat hmem h

theorem subset_appendRuntimeEvents {rows : List RuntimeEventRow} : ∀ {stored : List RuntimeEventRow},
    stored ⊆ appendRuntimeEvents stored rows := by
  induction rows with
  | nil => exact fun {_ _} h => h
  | cons row rows ih =>
    intro stored row' h
    rw [appendRuntimeEvents, List.foldl_cons, ← appendRuntimeEvents]
    apply ih
    split_ifs
    · exact h
    · exact List.mem_append_left _ h

/-- What the store holds is what it held and what it was given. -/
theorem appendRuntimeEvents_subset {rows : List RuntimeEventRow} : ∀ {stored : List RuntimeEventRow},
    appendRuntimeEvents stored rows ⊆ stored ++ rows := by
  induction rows with
  | nil => exact fun {_ _} h => List.mem_append_left _ h
  | cons row rows ih =>
    intro stored row' h
    rw [appendRuntimeEvents, List.foldl_cons, ← appendRuntimeEvents] at h
    have hmem := ih h
    split_ifs at hmem
    · simp only [List.mem_append, List.mem_cons] at hmem ⊢
      tauto
    · simp only [List.mem_append, List.mem_cons, List.not_mem_nil, or_false] at hmem ⊢
      tauto

/-- **A row that is given is stored**, where each id is one row's. -/
theorem mem_appendRuntimeEvents {rows known : List RuntimeEventRow}
    (hids : (known.map (·.eventUuid)).Nodup) : ∀ {stored : List RuntimeEventRow}, stored ⊆ known →
      rows ⊆ known → rows ⊆ appendRuntimeEvents stored rows := by
  induction rows with
  | nil => exact fun _ _ => List.nil_subset _
  | cons row rows ih =>
    intro stored hstored hrows
    obtain ⟨hrow, hrest⟩ := List.cons_subset.mp hrows
    rw [appendRuntimeEvents, List.foldl_cons, ← appendRuntimeEvents]
    refine List.cons_subset.mpr ⟨subset_appendRuntimeEvents ?_, ih ?_ hrest⟩
    · split_ifs with hmem
      · obtain ⟨row', hrow', heq⟩ := List.mem_map.mp hmem
        rwa [← List.inj_on_of_nodup_map hids (hstored hrow') hrow heq]
      · simp
    · split_ifs
      · exact hstored
      · exact List.append_subset.mpr ⟨hstored, List.cons_subset.mpr ⟨hrow, List.nil_subset _⟩⟩

/-! ## The count as a position -/

/-- The rows of entries that have a WAL line. -/
def backed (entries : List PendingEntry) : List RuntimeEventRow :=
  (entries.filter (·.walBacked)).map (·.row)

@[simp] theorem backed_append (entries entries' : List PendingEntry) :
    backed (entries ++ entries') = backed entries ++ backed entries' := by
  simp [backed]

theorem backed_replayed (tail : List RuntimeEventRow) :
    backed (tail.map fun row => ⟨row, true⟩) = tail := by
  induction tail with
  | nil => rfl
  | cons row tail ih => exact congrArg (row :: ·) ih

/-- What an object has out and pending. -/
def DurableRuntimeEventStore.queue (d : DurableRuntimeEventStore) : List PendingEntry :=
  d.flights.flatMap (·.batch) ++ d.pending

/-- The rows before an object's count are stored. -/
structure Counted (all stored : List RuntimeEventRow) (count : ℕ) : Prop where
  within : count ≤ all.length
  before : ∀ row ∈ all.take count, row ∈ stored

/-- The rows after an object's count are what it has out and pending, in order. -/
def Account (all : List RuntimeEventRow) (d : DurableRuntimeEventStore) : Prop :=
  all.drop d.committedLines = backed d.queue

theorem Counted.stored {all stored stored' : List RuntimeEventRow} {count : ℕ}
    (h : Counted all stored count) (hsub : stored ⊆ stored') : Counted all stored' count :=
  ⟨h.within, fun row hrow => hsub (h.before row hrow)⟩

theorem Counted.append {all stored : List RuntimeEventRow} {count : ℕ} (h : Counted all stored count)
    (more : List RuntimeEventRow) : Counted (all ++ more) stored count := by
  refine ⟨h.within.trans (by simp), fun row hrow => h.before row ?_⟩
  rwa [List.take_append_of_le_length h.within] at hrow

/-- A batch that is committed moves the count past its lines. -/
theorem Counted.commit {all stored stored' : List RuntimeEventRow} {count : ℕ}
    {batch rest : List PendingEntry} (h : Counted all stored count) (hsub : stored ⊆ stored')
    (hbatch : ∀ entry ∈ batch, entry.row ∈ stored')
    (hafter : all.drop count = backed (batch ++ rest)) :
    Counted all stored' (count + (batch.filter (·.walBacked)).length) ∧
      all.drop (count + (batch.filter (·.walBacked)).length) = backed rest := by
  have hlength : (batch.filter (·.walBacked)).length = (backed batch).length := by simp [backed]
  rw [backed_append] at hafter
  have hcut : all = all.take count ++ (backed batch ++ backed rest) := by
    rw [← hafter, List.take_append_drop]
  have htake : (all.take count).length = count := List.length_take_of_le h.within
  refine ⟨⟨?_, ?_⟩, ?_⟩
  · have hall := congrArg List.length hcut
    simp only [List.length_append, htake] at hall
    omega
  · intro row hrow
    rw [hlength, hcut, List.take_append, htake, List.take_of_length_le (by omega),
      Nat.add_sub_cancel_left, List.take_left'] at hrow
    rcases List.mem_append.mp hrow with hrow | hrow
    · exact hsub (h.before row hrow)
    · obtain ⟨entry, hentry, rfl⟩ := List.mem_map.mp hrow
      exact hbatch entry (List.mem_filter.mp hentry).1
    · rfl
  · rw [hlength, ← List.drop_drop, hafter, List.drop_left']
    rfl

/-- The last object made, which is the one in use. -/
structure Latest (all known : List RuntimeEventRow) (stored : List RuntimeEventRow)
    (d : DurableRuntimeEventStore) : Prop where
  counted : Counted all stored d.committedLines
  account : d.life ≠ .fresh → Account all d
  single : d.flights.length ≤ 1
  known : ∀ entry ∈ d.queue, entry.row ∈ known

/-- The WAL's rows, the cursor and the last object of a spool. -/
structure Positioned (format : Json.FloatFormat PyFloat) (rows extra known : List RuntimeEventRow)
    (s : Spool) : Prop where
  holds : Holds format s.wal rows extra
  counted : Counted (rows ++ extra) s.stored s.cursor
  stored : s.stored ⊆ known
  covered : rows ++ extra ⊆ known
  latest : ∀ d ∈ s.objects.getLast?, Latest (rows ++ extra) known s.stored d

/-! ## Operations that keep it -/

/-- The rows whose line an operation wrote. -/
def SpoolOp.writes : SpoolOp → List RuntimeEventRow
  | .enqueue _ event uuid true => [event.row uuid]
  | _ => []

/-- The rows an operation makes. -/
def SpoolOp.makes : SpoolOp → List RuntimeEventRow
  | .enqueue _ event uuid _ => [event.row uuid]
  | .crash event uuid kept => if kept = 0 then [] else [event.row uuid]
  | _ => []

section

variable (format)

/-- An object is used that was made last and that `start` was called on, or that has queued every row
from its count on by itself. -/
def Spool.Uses (s : Spool) (i : ℕ) : Prop :=
  i + 1 = s.objects.length ∧ ∀ d ∈ s.objects[i]?, d.life = .fresh →
    ∀ all, readWalRows format s.wal = .ok all → Account all d

/-- An operation that keeps every count a position. -/
def Spool.Orderly (s : Spool) : SpoolOp → Prop
  | .construct _ => True
  | .enqueue i _ _ written => s.Uses format i ∧ (written = true → Clean s.wal)
  | .start i => i + 1 = s.objects.length ∧
      ∀ d ∈ s.objects[i]?, d.life = .running ∨ (d.pending = [] ∧ d.flights = [])
  | .flushBegin i _ _ => s.Uses format i ∧ ∀ d ∈ s.objects[i]?, d.flights = []
  | .flushEnd i _ _ _ => s.Uses format i
  | .cancelLoop i _ => i + 1 = s.objects.length
  | .crash _ _ kept => kept = 0 ∨ Clean s.wal

end

theorem Positioned.known {rows extra known : List RuntimeEventRow} {s : Spool}
    (h : Positioned format rows extra known s) (more : List RuntimeEventRow) :
    Positioned format rows extra (known ++ more) s := by
  have hsub : known ⊆ known ++ more := List.subset_append_left _ _
  refine ⟨h.holds, h.counted, List.Subset.trans h.stored hsub, List.Subset.trans h.covered hsub, ?_⟩
  intro d hd
  have hlatest := h.latest d hd
  exact ⟨hlatest.counted, hlatest.account, hlatest.single,
    fun entry hentry => hsub (hlatest.known entry hentry)⟩

theorem Positioned.last {rows extra known : List RuntimeEventRow} {s : Spool} {i : ℕ}
    {d : DurableRuntimeEventStore} (h : Positioned format rows extra known s)
    (hi : i + 1 = s.objects.length) (hd : s.objects[i]? = some d) :
    Latest (rows ++ extra) known s.stored d := by
  apply h.latest d
  rw [List.getLast?_eq_getElem?, ← hi, Nat.add_sub_cancel]
  exact hd

/-- The object an operation uses is the last one, and its account holds. -/
theorem Positioned.used {rows extra known : List RuntimeEventRow} {s : Spool} {i : ℕ}
    {d : DurableRuntimeEventStore} (h : Positioned format rows extra known s) (huses : s.Uses format i)
    (hd : s.objects[i]? = some d) :
    Latest (rows ++ extra) known s.stored d ∧ Account (rows ++ extra) d := by
  obtain ⟨hlast, hfresh⟩ := huses
  have hd' := h.last hlast hd
  refine ⟨hd', ?_⟩
  by_cases hlife : d.life = .fresh
  · exact hfresh d hd hlife _ h.holds.readWalRows
  · exact hd'.account hlife

theorem getLast?_set_last {α : Type} {l : List α} {i : ℕ} (hi : i + 1 = l.length) (a : α) :
    (l.set i a).getLast? = some a := by
  rw [List.getLast?_eq_getElem?, List.length_set, ← hi, Nat.add_sub_cancel,
    List.getElem?_set_self (by omega)]

/-- The last object changed, with the store. -/
theorem Positioned.change {rows extra known stored : List RuntimeEventRow} {s : Spool} {i : ℕ}
    {cursor : ℕ} {d : DurableRuntimeEventStore} (h : Positioned format rows extra known s)
    (hi : i + 1 = s.objects.length) (hcounted : Counted (rows ++ extra) stored cursor)
    (hstored : stored ⊆ known) (hlatest : Latest (rows ++ extra) known stored d) :
    Positioned format rows extra known
      { s with stored := stored, cursor := cursor, objects := s.objects.set i d } := by
  refine ⟨h.holds, hcounted, hstored, h.covered, ?_⟩
  intro d' hd'
  rw [getLast?_set_last hi, Option.mem_some_iff] at hd'
  exact hd' ▸ hlatest

/-- The last object changed, and perhaps some rows landed in the store. -/
theorem Positioned.land {rows extra known batch : List RuntimeEventRow} {s : Spool} {i : ℕ}
    {d : DurableRuntimeEventStore} (h : Positioned format rows extra known s) (hbatch : batch ⊆ known)
    (hi : i + 1 = s.objects.length) (hlatest : Latest (rows ++ extra) known s.stored d)
    (landed : Bool) :
    Positioned format rows extra known { s with
      stored := if landed then appendRuntimeEvents s.stored batch else s.stored
      objects := s.objects.set i d } := by
  cases landed with
  | false => exact h.change hi h.counted h.stored hlatest
  | true =>
    have hstored : appendRuntimeEvents s.stored batch ⊆ known :=
      List.Subset.trans appendRuntimeEvents_subset (List.append_subset.mpr ⟨h.stored, hbatch⟩)
    exact h.change hi (h.counted.stored subset_appendRuntimeEvents) hstored
      ⟨hlatest.counted.stored subset_appendRuntimeEvents, hlatest.account, hlatest.single,
        hlatest.known⟩

section Steps

variable {rows extra known : List RuntimeEventRow} {s s' : Spool}

theorem Positioned.construct (h : Positioned format rows extra known s) (batchSize : ℕ) :
    Positioned format rows extra known { s with
      objects := s.objects ++ [{ batchSize := batchSize, committedLines := s.cursor }] } := by
  refine ⟨h.holds, h.counted, h.stored, h.covered, ?_⟩
  intro d hd
  rw [List.getLast?_concat, Option.mem_some_iff] at hd
  subst hd
  exact ⟨h.counted, fun hlife => absurd rfl hlife, Nat.zero_le _, fun entry hentry =>
    absurd hentry List.not_mem_nil⟩

theorem Positioned.enqueue (h : Positioned format rows extra known s) {i : ℕ} {event : RuntimeEvent}
    {uuid : String} {written : Bool} {d : DurableRuntimeEventStore}
    (huses : s.Uses format i) (hclean : written = true → Clean s.wal) (hd : s.objects[i]? = some d) :
    ∃ extra', Positioned format (rows ++ if written then [event.row uuid] else []) extra'
      (known ++ [event.row uuid]) { s with
        wal := if written then s.wal ++ (event.row uuid).line format ++ ['\n'] else s.wal
        objects := s.objects.set i (d.enqueue (event.row uuid) written) } := by
  obtain ⟨hlatest, haccount⟩ := h.used huses hd
  have hsub : known ⊆ known ++ [event.row uuid] := List.subset_append_left _ _
  have hqueue : (d.enqueue (event.row uuid) written).queue = d.queue ++ [⟨event.row uuid, written⟩] := by
    simp [DurableRuntimeEventStore.queue, DurableRuntimeEventStore.enqueue]
  have hknown : ∀ entry ∈ (d.enqueue (event.row uuid) written).queue,
      entry.row ∈ known ++ [event.row uuid] := by
    intro entry hentry
    rw [hqueue] at hentry
    rcases List.mem_append.mp hentry with hentry | hentry
    · exact hsub (hlatest.known entry hentry)
    · rw [List.mem_singleton.mp hentry]
      simp
  cases written with
  | false =>
    rw [if_neg Bool.false_ne_true, if_neg Bool.false_ne_true, List.append_nil]
    refine ⟨extra, (h.known _).change huses.1 h.counted (List.Subset.trans h.stored hsub) ?_⟩
    refine ⟨hlatest.counted, fun _ => ?_, hlatest.single, hknown⟩
    rw [Account, hqueue, backed_append]
    exact haccount.trans (List.append_nil _).symm
  | true =>
    obtain ⟨rfl, hwal⟩ := h.holds.clean (hclean rfl)
    rw [if_pos rfl, if_pos rfl]
    simp only [List.append_nil] at haccount hlatest
    have hcounted := h.counted
    rw [List.append_nil] at hcounted
    refine ⟨[], ⟨?_, ?_⟩, ?_, ?_, ?_, ?_⟩
    · intro row hrow
      rcases List.mem_append.mp hrow with hrow | hrow
      · exact h.holds.enqueued row hrow
      · rw [List.mem_singleton.mp hrow]
        exact ⟨event, uuid, rfl⟩
    · refine ⟨[], .clean, ?_⟩
      simp [hwal, linesText]
    · rw [List.append_nil]
      exact hcounted.append _
    · exact List.Subset.trans h.stored hsub
    · have hcovered := h.covered
      rw [List.append_nil] at hcovered ⊢
      exact List.append_subset.mpr ⟨List.Subset.trans hcovered hsub, List.subset_append_right _ _⟩
    · intro d' hd'
      rw [getLast?_set_last huses.1, Option.mem_some_iff] at hd'
      subst hd'
      rw [List.append_nil]
      refine ⟨hlatest.counted.append _, fun _ => ?_, hlatest.single, hknown⟩
      have hdrop : (rows ++ [event.row uuid]).drop d.committedLines =
          rows.drop d.committedLines ++ [event.row uuid] :=
        List.drop_append_of_le_length hlatest.counted.within
      rw [Account, hqueue, backed_append]
      exact hdrop.trans (congrArg (· ++ [event.row uuid]) haccount)

theorem Positioned.start (h : Positioned format rows extra known s) {i : ℕ}
    {d : DurableRuntimeEventStore} (hi : i + 1 = s.objects.length)
    (hidle : d.life = .running ∨ (d.pending = [] ∧ d.flights = [])) (hd : s.objects[i]? = some d) :
    Positioned format rows extra known { s with objects := s.objects.set i (s.start format d) } := by
  have hlatest := h.last hi hd
  refine h.change hi h.counted h.stored ?_
  by_cases hlife : d.life = .running
  · rw [Spool.start, if_pos hlife]
    exact hlatest
  · obtain ⟨hpending, hflights⟩ := hidle.resolve_left hlife
    have htail : s.replayable format = .ok ((rows ++ extra).drop s.cursor) := by
      rw [Spool.replayable, h.holds.readWalRows]
      rfl
    rw [Spool.start, if_neg hlife, htail]
    have hqueue : ∀ tail : List RuntimeEventRow, DurableRuntimeEventStore.queue { d with
        life := .running, committedLines := s.cursor,
        pending := d.pending ++ tail.map fun row => ⟨row, true⟩ } =
          tail.map fun row => ⟨row, true⟩ := by
      intro tail
      simp [DurableRuntimeEventStore.queue, hpending, hflights]
    refine ⟨h.counted, fun _ => ?_, hlatest.single, ?_⟩
    · rw [Account, hqueue, backed_replayed]
    · intro entry hentry
      rw [hqueue] at hentry
      obtain ⟨row, hrow, rfl⟩ := List.mem_map.mp hentry
      exact h.covered (List.mem_of_mem_drop hrow)

theorem Positioned.flushBegin (h : Positioned format rows extra known s) {i : ℕ}
    {d : DurableRuntimeEventStore} (huses : s.Uses format i) (hflights : d.flights = [])
    (hd : s.objects[i]? = some d) (byLoop fsyncOk : Bool) :
    Positioned format rows extra known
      { s with objects := s.objects.set i (d.flushBegin byLoop fsyncOk) } := by
  obtain ⟨hlatest, haccount⟩ := h.used huses hd
  refine h.change huses.1 h.counted h.stored ?_
  by_cases hpending : d.pending = []
  · rw [DurableRuntimeEventStore.flushBegin, if_pos hpending]
    exact hlatest
  · have hqueue : (d.flushBegin byLoop fsyncOk).queue = d.queue := by
      simp [DurableRuntimeEventStore.flushBegin, DurableRuntimeEventStore.queue, hpending, hflights]
    refine ⟨?_, fun _ => ?_, ?_, fun entry hentry => hlatest.known entry (hqueue ▸ hentry)⟩
    · rw [DurableRuntimeEventStore.flushBegin, if_neg hpending]
      exact hlatest.counted
    · rw [Account, hqueue, ← haccount, DurableRuntimeEventStore.flushBegin, if_neg hpending]
    · rw [DurableRuntimeEventStore.flushBegin, if_neg hpending, hflights]
      exact le_rfl

/-- The one flight of an object. -/
theorem flights_single {d : DurableRuntimeEventStore} {k : ℕ} {flight : Flight}
    (hsingle : d.flights.length ≤ 1) (hflight : d.flights[k]? = some flight) :
    d.flights = [flight] ∧ d.flights.eraseIdx k = [] := by
  obtain ⟨hk, hget⟩ := List.getElem?_eq_some_iff.mp hflight
  obtain rfl : k = 0 := by omega
  obtain ⟨flight', hflights⟩ := List.length_eq_one_iff.mp (show d.flights.length = 1 by omega)
  simp only [hflights, List.getElem_cons_zero] at hget
  subst hget
  rw [hflights]
  exact ⟨rfl, rfl⟩

theorem Positioned.flushCommitted (h : Positioned format rows extra known s)
    (hids : (known.map (·.eventUuid)).Nodup) {i k : ℕ} {d : DurableRuntimeEventStore} {flight : Flight}
    (huses : s.Uses format i) (hd : s.objects[i]? = some d) (hflight : d.flights[k]? = some flight)
    (cursorOk : Bool) :
    Positioned format rows extra known { s with
      stored := appendRuntimeEvents s.stored (flight.batch.map (·.row))
      cursor := if cursorOk then
        (DurableRuntimeEventStore.flushCommitted { d with flights := d.flights.eraseIdx k } flight
          cursorOk).committedLines else s.cursor
      objects := s.objects.set i (DurableRuntimeEventStore.flushCommitted
        { d with flights := d.flights.eraseIdx k } flight cursorOk) } := by
  obtain ⟨hlatest, haccount⟩ := h.used huses hd
  obtain ⟨hflights, herase⟩ := flights_single hlatest.single hflight
  have hqueue : d.queue = flight.batch ++ d.pending := by
    simp [DurableRuntimeEventStore.queue, hflights]
  have hbatch : flight.batch.map (·.row) ⊆ known := by
    intro row hrow
    obtain ⟨entry, hentry, rfl⟩ := List.mem_map.mp hrow
    exact hlatest.known entry (hqueue ▸ List.mem_append_left _ hentry)
  have hlanded := mem_appendRuntimeEvents hids h.stored hbatch
  rw [Account, hqueue] at haccount
  obtain ⟨hcount, hafter⟩ := hlatest.counted.commit subset_appendRuntimeEvents
    (fun entry hentry => hlanded (List.mem_map_of_mem hentry)) haccount
  have hstored : appendRuntimeEvents s.stored (flight.batch.map (·.row)) ⊆ known :=
    List.Subset.trans appendRuntimeEvents_subset (List.append_subset.mpr ⟨h.stored, hbatch⟩)
  refine h.change huses.1 ?_ hstored ⟨hcount, fun _ => ?_, ?_, ?_⟩
  · cases cursorOk with
    | false => exact h.counted.stored subset_appendRuntimeEvents
    | true => exact hcount
  · have hrest : (DurableRuntimeEventStore.flushCommitted { d with flights := d.flights.eraseIdx k }
        flight cursorOk).queue = d.pending := by
      simp [DurableRuntimeEventStore.queue, DurableRuntimeEventStore.flushCommitted, herase]
    rw [Account, hrest]
    exact hafter
  · simp [DurableRuntimeEventStore.flushCommitted, herase]
  · intro entry hentry
    refine hlatest.known entry (hqueue ▸ List.mem_append_right _ ?_)
    simpa [DurableRuntimeEventStore.queue, DurableRuntimeEventStore.flushCommitted, herase] using hentry

theorem Positioned.flushFailed (h : Positioned format rows extra known s) {i k : ℕ}
    {d : DurableRuntimeEventStore} {flight : Flight} (huses : s.Uses format i)
    (hd : s.objects[i]? = some d) (hflight : d.flights[k]? = some flight) (landed : Bool) :
    Positioned format rows extra known { s with
      stored := if landed then appendRuntimeEvents s.stored (flight.batch.map (·.row)) else s.stored
      objects := s.objects.set i (DurableRuntimeEventStore.flushFailed
        { d with flights := d.flights.eraseIdx k } flight) } := by
  obtain ⟨hlatest, haccount⟩ := h.used huses hd
  obtain ⟨hflights, herase⟩ := flights_single hlatest.single hflight
  have hqueue : (DurableRuntimeEventStore.flushFailed { d with flights := d.flights.eraseIdx k }
      flight).queue = d.queue := by
    change (d.flights.eraseIdx k).flatMap (·.batch) ++ (flight.batch ++ d.pending) =
      d.flights.flatMap (·.batch) ++ d.pending
    rw [herase, hflights]
    simp
  have hbatch : flight.batch.map (·.row) ⊆ known := by
    intro row hrow
    obtain ⟨entry, hentry, rfl⟩ := List.mem_map.mp hrow
    refine hlatest.known entry (List.mem_append_left _ ?_)
    rw [hflights]
    simpa using hentry
  refine h.land hbatch huses.1 ?_ landed
  refine ⟨hlatest.counted, fun _ => ?_, ?_, ?_⟩
  · rw [Account, hqueue]
    exact haccount
  · rw [DurableRuntimeEventStore.flushFailed, herase]
    exact Nat.zero_le _
  · rw [hqueue]
    exact hlatest.known

theorem Positioned.cancelLoop (h : Positioned format rows extra known s) {i : ℕ}
    {d : DurableRuntimeEventStore} (hi : i + 1 = s.objects.length) (hd : s.objects[i]? = some d)
    (landed : Bool) :
    Positioned format rows extra known { s with
      stored := if landed then appendRuntimeEvents s.stored (((d.flights.filter fun flight =>
        flight.byLoop && !flight.cancelled).flatMap (·.batch)).map (·.row)) else s.stored
      objects := s.objects.set i d.cancelLoop } := by
  have hlatest := h.last hi hd
  have hqueue : d.cancelLoop.queue = d.queue := by
    have hbatch : ∀ flight : Flight, (if flight.byLoop then { flight with cancelled := true }
        else flight).batch = flight.batch := by
      intro flight
      split_ifs <;> rfl
    simp [DurableRuntimeEventStore.queue, DurableRuntimeEventStore.cancelLoop, List.flatMap_map, hbatch]
  have hbatch : ((d.flights.filter fun flight => flight.byLoop && !flight.cancelled).flatMap
      (·.batch)).map (·.row) ⊆ known := by
    intro row hrow
    obtain ⟨entry, hentry, rfl⟩ := List.mem_map.mp hrow
    obtain ⟨flight, hflight, hentry⟩ := List.mem_flatMap.mp hentry
    refine hlatest.known entry (List.mem_append_left _ (List.mem_flatMap.mpr ⟨flight, ?_, hentry⟩))
    exact (List.mem_filter.mp hflight).1
  refine h.land hbatch hi ?_ landed
  refine ⟨hlatest.counted, fun hlife => ?_, ?_, ?_⟩
  · rw [Account, hqueue]
    refine hlatest.account fun hfresh => hlife ?_
    rw [DurableRuntimeEventStore.cancelLoop, hfresh]
    rfl
  · rw [DurableRuntimeEventStore.cancelLoop, List.length_map]
    exact hlatest.single
  · rw [hqueue]
    exact hlatest.known

theorem Positioned.crash (h : Positioned format rows extra known s) (event : RuntimeEvent)
    (uuid : String) {kept : ℕ} (hkept : kept = 0 ∨ Clean s.wal) :
    ∃ extra', Positioned format rows extra' (known ++ if kept = 0 then [] else [event.row uuid])
      { s with wal := s.wal ++ ((event.row uuid).line format).take kept, objects := [] } := by
  by_cases hzero : kept = 0
  · rw [if_pos hzero, hzero, List.append_nil, List.take_zero, List.append_nil]
    exact ⟨extra, h.holds, h.counted, h.stored, h.covered, nofun⟩
  · obtain ⟨rfl, hwal⟩ := h.holds.clean (hkept.resolve_left hzero)
    have hcounted := h.counted
    have hcovered := h.covered
    rw [List.append_nil] at hcounted hcovered
    obtain ⟨extra', hextra, htorn⟩ := @torn_take format event uuid kept
    rw [if_neg hzero]
    refine ⟨extra', ⟨h.holds.enqueued, _, htorn, by rw [hwal]⟩, hcounted.append _, ?_, ?_, nofun⟩
    · exact List.Subset.trans h.stored (List.subset_append_left _ _)
    · refine List.append_subset.mpr
        ⟨List.Subset.trans hcovered (List.subset_append_left _ _), ?_⟩
      exact List.Subset.trans hextra (List.subset_append_right _ _)

end Steps

/-! ## Runs -/

section

variable (format)

/-- An operation that takes place. -/
def spoolStep (s : Spool) (op : SpoolOp) (s' : Spool) : Prop := s.act format op = some s'

/-- An orderly operation that takes place. -/
def orderlyStep (s : Spool) (op : SpoolOp) (s' : Spool) : Prop :=
  s.Orderly format op ∧ spoolStep format s op s'

/-- Every written event is stored, pending or replayable, and the store holds an event once. -/
structure LosesNothing (ops : List SpoolOp) (s : Spool) : Prop where
  kept : ∀ row ∈ ops.flatMap SpoolOp.writes, row ∈ s.stored ∨
    (∃ d ∈ s.objects, ∃ entry ∈ d.pending, entry.row = row) ∨
      ∃ tail, s.replayable format = .ok tail ∧ row ∈ tail
  once : (s.stored.map (·.eventUuid)).Nodup

end

/-- **One operation** that is orderly. -/
theorem Positioned.act {rows extra known : List RuntimeEventRow} {s s' : Spool} {op : SpoolOp}
    (h : Positioned format rows extra known s) (hids : (known.map (·.eventUuid)).Nodup)
    (horderly : s.Orderly format op) (hact : s.act format op = some s') :
    ∃ extra', Positioned format (rows ++ op.writes) extra' (known ++ op.makes) s' := by
  cases op with
  | construct batchSize =>
    obtain rfl := Option.some.inj hact
    refine ⟨extra, ?_⟩
    simpa [SpoolOp.writes, SpoolOp.makes] using h.construct batchSize
  | enqueue i event uuid written =>
    obtain ⟨d, hd, hact⟩ := Option.bind_eq_some_iff.mp hact
    obtain rfl := Option.some.inj hact
    obtain ⟨extra', h'⟩ := @Positioned.enqueue _ _ _ _ _ h i event uuid written d horderly.1 horderly.2 hd
    refine ⟨extra', ?_⟩
    cases written <;> exact h'
  | start i =>
    obtain ⟨d, hd, hact⟩ := Option.bind_eq_some_iff.mp hact
    obtain rfl := Option.some.inj hact
    refine ⟨extra, ?_⟩
    simpa [SpoolOp.writes, SpoolOp.makes] using h.start horderly.1 (horderly.2 d hd) hd
  | flushBegin i byLoop fsyncOk =>
    obtain ⟨d, hd, hact⟩ := Option.bind_eq_some_iff.mp hact
    obtain ⟨-, -, hact⟩ := Option.bind_eq_some_iff.mp hact
    obtain rfl := Option.some.inj hact
    refine ⟨extra, ?_⟩
    simpa [SpoolOp.writes, SpoolOp.makes] using
      h.flushBegin horderly.1 (horderly.2 d hd) hd byLoop fsyncOk
  | flushEnd i k answer cursorOk =>
    obtain ⟨d, hd, hact⟩ := Option.bind_eq_some_iff.mp hact
    obtain ⟨flight, hflight, hact⟩ := Option.bind_eq_some_iff.mp hact
    obtain ⟨-, -, hact⟩ := Option.bind_eq_some_iff.mp hact
    refine ⟨extra, ?_⟩
    change Positioned format (rows ++ []) extra (known ++ []) s'
    rw [List.append_nil, List.append_nil]
    cases answer with
    | committed =>
      obtain rfl := Option.some.inj hact
      exact h.flushCommitted hids horderly hd hflight cursorOk
    | raised landed =>
      obtain rfl := Option.some.inj hact
      exact h.flushFailed horderly hd hflight landed
  | cancelLoop i landed =>
    obtain ⟨d, hd, hact⟩ := Option.bind_eq_some_iff.mp hact
    obtain rfl := Option.some.inj hact
    refine ⟨extra, ?_⟩
    change Positioned format (rows ++ []) extra (known ++ []) _
    rw [List.append_nil, List.append_nil]
    exact h.cancelLoop horderly hd landed
  | crash event uuid kept =>
    obtain rfl := Option.some.inj hact
    obtain ⟨extra', h'⟩ := h.crash event uuid horderly
    refine ⟨extra', ?_⟩
    change Positioned format (rows ++ []) extra' _ _
    rw [List.append_nil]
    exact h'

theorem act_once {s s' : Spool} {op : SpoolOp} (hact : s.act format op = some s')
    (h : (s.stored.map (·.eventUuid)).Nodup) : (s'.stored.map (·.eventUuid)).Nodup := by
  cases op with
  | construct batchSize =>
    obtain rfl := Option.some.inj hact
    exact h
  | crash event uuid kept =>
    obtain rfl := Option.some.inj hact
    exact h
  | enqueue i event uuid written =>
    obtain ⟨d, -, hact⟩ := Option.bind_eq_some_iff.mp hact
    obtain rfl := Option.some.inj hact
    exact h
  | start i =>
    obtain ⟨d, -, hact⟩ := Option.bind_eq_some_iff.mp hact
    obtain rfl := Option.some.inj hact
    exact h
  | flushBegin i byLoop fsyncOk =>
    obtain ⟨d, -, hact⟩ := Option.bind_eq_some_iff.mp hact
    obtain ⟨-, -, hact⟩ := Option.bind_eq_some_iff.mp hact
    obtain rfl := Option.some.inj hact
    exact h
  | flushEnd i k answer cursorOk =>
    obtain ⟨d, -, hact⟩ := Option.bind_eq_some_iff.mp hact
    obtain ⟨flight, -, hact⟩ := Option.bind_eq_some_iff.mp hact
    obtain ⟨-, -, hact⟩ := Option.bind_eq_some_iff.mp hact
    cases answer with
    | committed =>
      obtain rfl := Option.some.inj hact
      exact nodup_appendRuntimeEvents h
    | raised landed =>
      obtain rfl := Option.some.inj hact
      cases landed with
      | false => exact h
      | true => exact nodup_appendRuntimeEvents h
  | cancelLoop i landed =>
    obtain ⟨d, -, hact⟩ := Option.bind_eq_some_iff.mp hact
    obtain rfl := Option.some.inj hact
    cases landed with
    | false => exact h
    | true => exact nodup_appendRuntimeEvents h

/-- What is stored before the cursor, and what is read after it. -/
theorem Positioned.losesNothing {ops : List SpoolOp} {extra known : List RuntimeEventRow} {s : Spool}
    (h : Positioned format (ops.flatMap SpoolOp.writes) extra known s)
    (honce : (s.stored.map (·.eventUuid)).Nodup) : LosesNothing format ops s := by
  refine ⟨fun row hrow => ?_, honce⟩
  have hall : row ∈ ops.flatMap SpoolOp.writes ++ extra := List.mem_append_left _ hrow
  rw [← List.take_append_drop s.cursor (ops.flatMap SpoolOp.writes ++ extra)] at hall
  rcases List.mem_append.mp hall with htake | hdrop
  · exact .inl (h.counted.before row htake)
  · refine .inr (.inr ⟨_, ?_, hdrop⟩)
    rw [Spool.replayable, h.holds.readWalRows]
    rfl

/-- **The spool loses nothing** in a run of orderly operations, where each event has an id of its
own. -/
theorem spool_loses_nothing {ops : List SpoolOp} {s : Spool}
    (hrun : Run (orderlyStep format) {} ops s)
    (hids : ((ops.flatMap SpoolOp.makes).map (·.eventUuid)).Nodup) : LosesNothing format ops s := by
  have hinv : ((ops.flatMap SpoolOp.makes).map (·.eventUuid)).Nodup →
      (s.stored.map (·.eventUuid)).Nodup ∧ ∃ extra, Positioned format
        (ops.flatMap SpoolOp.writes) extra (ops.flatMap SpoolOp.makes) s := by
    refine hrun.invariant (fun ops s => ((ops.flatMap SpoolOp.makes).map (·.eventUuid)).Nodup →
      (s.stored.map (·.eventUuid)).Nodup ∧ ∃ extra, Positioned format
        (ops.flatMap SpoolOp.writes) extra (ops.flatMap SpoolOp.makes) s) ?_ ?_
    · intro _
      have hempty : Counted [] [] 0 := ⟨le_rfl, nofun⟩
      exact ⟨List.nodup_nil, [], ⟨nofun, [], .clean, rfl⟩, hempty, List.nil_subset _,
        List.nil_subset _, nofun⟩
    · rintro ops op s s' ih ⟨horderly, hact⟩ hids
      rw [List.flatMap_append, List.flatMap_singleton, List.map_append] at hids
      have hbefore := (List.nodup_append.mp hids).1
      obtain ⟨honce, extra, hpositioned⟩ := ih hbefore
      rw [List.flatMap_append, List.flatMap_singleton, List.flatMap_append, List.flatMap_singleton]
      exact ⟨act_once hact honce, hpositioned.act hbefore horderly hact⟩
  obtain ⟨honce, extra, hpositioned⟩ := hinv hids
  exact hpositioned.losesNothing honce

section Witness

/-- An event. -/
def startedEvent : RuntimeEvent where
  type := "run_started"
  agentId := "scout"
  runId := none
  sessionId := none
  ts := 0
  payload := []
  distinct := by simp [Json.Distinct, Json.DistinctFields]

/-- An event that is enqueued and committed, and one that a crash cuts. -/
theorem spool_loses_nothing_once : ∃ s, LosesNothing ratioFormat [.construct 128, .start 0,
    .enqueue 0 startedEvent "a" true, .flushBegin 0 true true, .flushEnd 0 0 .committed true,
    .crash startedEvent "b" 1] s ∧ s.stored = [startedEvent.row "a"] := by
  have huses : ∀ {s : Spool} {d : DurableRuntimeEventStore}, s.objects = [d] → d.life = .running →
      s.Uses ratioFormat 0 := by
    rintro s d hobjects hlife
    refine ⟨by rw [hobjects]; rfl, fun d' hd' hfresh => ?_⟩
    rw [hobjects] at hd'
    obtain rfl := Option.some.inj hd'
    rw [hlife] at hfresh
    exact nomatch hfresh
  have hclean : Clean ((startedEvent.row "a").line ratioFormat ++ ['\n']) :=
    .inr (by rw [List.getLast?_concat])
  have hrun : Run (orderlyStep ratioFormat) {} [.construct 128, .start 0,
      .enqueue 0 startedEvent "a" true, .flushBegin 0 true true, .flushEnd 0 0 .committed true,
      .crash startedEvent "b" 1] _ :=
    .cons ⟨trivial, rfl⟩ <| .cons ⟨⟨rfl, fun d hd => .inr ?_⟩, rfl⟩ <|
      .cons ⟨⟨huses rfl rfl, fun _ => .inl rfl⟩, rfl⟩ <|
      .cons ⟨⟨huses rfl rfl, fun d hd => ?_⟩, rfl⟩ <|
      .cons ⟨huses rfl rfl, rfl⟩ <| .single ⟨.inr hclean, rfl⟩
  · exact ⟨_, spool_loses_nothing hrun (by decide), rfl⟩
  · obtain rfl := Option.some.inj hd
    exact ⟨rfl, rfl⟩
  · obtain rfl := Option.some.inj hd
    rfl

/-- A batch whose flush the loop's cancellation cuts is skipped by the next commit. -/
theorem cancelled_batch_lost : ¬ ∀ (format : Json.FloatFormat PyFloat) (ops : List SpoolOp) (s : Spool),
    Run (spoolStep format) {} ops s → ((ops.flatMap SpoolOp.makes).map (·.eventUuid)).Nodup →
      LosesNothing format ops s := by
  intro hclaim
  have hrun : Run (spoolStep ratioFormat) {} [.construct 128, .start 0,
      .enqueue 0 startedEvent "a" true, .flushBegin 0 true true, .enqueue 0 startedEvent "b" true,
      .cancelLoop 0 false, .flushBegin 0 false true, .flushEnd 0 1 .committed true] _ :=
    .cons rfl <| .cons rfl <| .cons rfl <| .cons rfl <| .cons rfl <| .cons rfl <| .cons rfl <|
      .single rfl
  have hheld : Holds ratioFormat ((startedEvent.row "a").line ratioFormat ++ ['\n'] ++
      (startedEvent.row "b").line ratioFormat ++ ['\n'])
      [startedEvent.row "a", startedEvent.row "b"] [] := by
    refine ⟨?_, [], .clean, by simp [linesText]⟩
    intro row hrow
    simp only [List.mem_cons, List.not_mem_nil, or_false] at hrow
    rcases hrow with rfl | rfl
    · exact ⟨_, _, rfl⟩
    · exact ⟨_, _, rfl⟩
  have hother : startedEvent.row "a" ≠ startedEvent.row "b" :=
    fun heq => absurd (congrArg RuntimeEventRow.eventUuid heq) (by decide)
  obtain hstored | ⟨d, hd, entry, hentry, -⟩ | ⟨tail, htail, hrow⟩ :=
    (hclaim _ _ _ hrun (by decide)).kept (startedEvent.row "a") (by simp [SpoolOp.writes])
  · exact hother (List.mem_singleton.mp hstored)
  · rw [List.mem_singleton.mp hd] at hentry
    exact List.not_mem_nil hentry
  · have hread : readWalRows ratioFormat ((startedEvent.row "a").line ratioFormat ++ ['\n'] ++
        (startedEvent.row "b").line ratioFormat ++ ['\n']) = .ok _ := hheld.readWalRows
    have hdropped : Spool.replayable ratioFormat
        ⟨(startedEvent.row "a").line ratioFormat ++ ['\n'] ++
          (startedEvent.row "b").line ratioFormat ++ ['\n'], 1, [], []⟩ =
        .ok [startedEvent.row "b"] := by
      rw [Spool.replayable, hread]
      rfl
    obtain rfl : [startedEvent.row "b"] = tail := Except.ok.inj (hdropped.symm.trans htail)
    exact hother (List.mem_singleton.mp hrow)

end Witness

end Veridex.Runtime
