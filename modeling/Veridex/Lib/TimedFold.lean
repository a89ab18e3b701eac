import Mathlib

/-!
# What a log holds since its last reset

`sinceLast resets log` is the part of a log from its last resetting entry on, that entry included, and
the whole log where no entry resets. `samplesSince` are the samples read off that part, so an entry
that resets clears what came before it and then contributes its own sample.

Results: `samplesSince_concat` (what one more entry does to the samples).
-/

namespace Veridex.Lib

variable {α β : Type*}

/-- The log from its last resetting entry on. -/
def sinceLast (resets : α → Bool) : List α → List α
  | [] => []
  | entry :: log => if log.any resets then sinceLast resets log else entry :: log

/-- The samples of the log since its last reset. -/
def samplesSince (resets : α → Bool) (sample : α → Option β) (log : List α) : List β :=
  (sinceLast resets log).filterMap sample

variable {resets : α → Bool} {sample : α → Option β}

theorem sinceLast_concat (entry : α) : ∀ log : List α, sinceLast resets (log ++ [entry]) =
    if resets entry then [entry] else sinceLast resets log ++ [entry]
  | [] => by simp [sinceLast]
  | first :: log => by
    have ih := sinceLast_concat entry log
    rw [List.cons_append, sinceLast, sinceLast, ih]
    by_cases hentry : resets entry = true
    · simp [hentry]
    · by_cases hlog : log.any resets = true
      · simp [hentry, hlog]
      · simp [hentry, hlog]

/-- **One more entry** clears the samples where it resets, and adds its own. -/
theorem samplesSince_concat (log : List α) (entry : α) :
    samplesSince resets sample (log ++ [entry]) =
      (if resets entry then [] else samplesSince resets sample log) ++ (sample entry).toList := by
  unfold samplesSince
  rw [sinceLast_concat]
  by_cases hentry : resets entry = true
  · cases hsample : sample entry <;> simp [hentry, hsample]
  · cases hsample : sample entry <;> simp [hentry, hsample]

end Veridex.Lib

/-!
## Folds over a timed series

A series of timestamped samples is folded with the time between neighbours. `seededFold` starts from
the first sample; `seededFold_concat` says what one more sample does to it, in terms of the value and
the timestamp an accumulator keeps.
-/

namespace Veridex.Lib

variable {α : Type*}

/-- The fold of the samples after `prevTs`, from `acc`. -/
def timedFold (step : α → α → ℤ → α) : ℤ → α → List (ℤ × α) → α
  | _, acc, [] => acc
  | prevTs, acc, (ts, value) :: series => timedFold step ts (step acc value (ts - prevTs)) series

/-- The fold of a series, from its first sample. -/
def seededFold (step : α → α → ℤ → α) : List (ℤ × α) → Option α
  | [] => none
  | (ts, value) :: series => some (timedFold step ts value series)

/-- The timestamp of the last sample. -/
def lastTs (series : List (ℤ × α)) : Option ℤ := series.getLast?.map Prod.fst

variable {step : α → α → ℤ → α}

@[simp] theorem lastTs_concat (series : List (ℤ × α)) (sample : ℤ × α) :
    lastTs (series ++ [sample]) = some sample.1 := by
  simp [lastTs]

theorem timedFold_concat (ts : ℤ) (value : α) : ∀ (prevTs : ℤ) (acc : α) (series : List (ℤ × α)),
    timedFold step prevTs acc (series ++ [(ts, value)]) =
      step (timedFold step prevTs acc series) value (ts - (lastTs series).getD prevTs)
  | _, _, [] => rfl
  | prevTs, acc, (ts', value') :: series => by
    rw [List.cons_append, timedFold, timedFold, timedFold_concat]
    cases hlast : series.getLast? with
    | none => simp_all [lastTs]
    | some last => simp [lastTs, List.getLast?_cons, hlast]

/-- **One more sample** is folded in over the time since the last one, or seeds the fold. -/
theorem seededFold_concat (series : List (ℤ × α)) (ts : ℤ) (value : α) :
    seededFold step (series ++ [(ts, value)]) = some
      (match seededFold step series, lastTs series with
        | some acc, some prevTs => step acc value (ts - prevTs)
        | _, _ => value) := by
  cases series with
  | nil => rfl
  | cons first series =>
    have hlast : lastTs (first :: series) = some ((lastTs series).getD first.1) := by
      cases h : series.getLast? <;> simp [lastTs, List.getLast?_cons, h]
    rw [List.cons_append, seededFold, seededFold, timedFold_concat, hlast]

end Veridex.Lib
