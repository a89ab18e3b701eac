import Veridex.Maker.Runner

/-!
# Whether only observed references are scored

A quote is scored against the last fair value known at its horizon. Where the market's series has
ended before the horizon, that is the value the series ended with; and where the fair value known
when the quote is made is zero, the markout raises and the tape is not scored at all.

Result: `scoresObserved_iff`, with the tapes on which neither happens.
-/

namespace Veridex.Maker

open Veridex.Py Veridex.Lib

/-- The rows `build_cp1_maker_tape` emits: a fair value of whole basis points, a mid in `[0, 1]`. -/
def Emitted (tape : List MakerRow) : Prop :=
  ∀ row ∈ tape, (∃ k : ℤ, 0 ≤ k ∧ k ≤ 10000 ∧ row.fv = k / 10000) ∧ ∀ mid ∈ row.mid, Native mid

/-- The series of a market. -/
def marketRows (tape : List MakerRow) (market : Market) : List MakerRow :=
  tape.filter (·.market = market)

/-- The tape is scored, and a pair is scored only where its market's series reaches its horizon. -/
def ScoresObserved (tape : List MakerRow) (horizonsS : List ℤ) : Prop :=
  (∃ books, scoreTape tape horizonsS = .ok books) ∧
    ∀ group ∈ grouped MakerRow.market tape, ∀ agent ∈ [naive, candidate],
      ∀ row ∈ liveRows group.2, ∀ quote ∈ quotesOn agent row, ∀ h ∈ horizonsS, ∀ mark,
        scorePair (refAt group.2) (agent.propose row.view) quote h = .ok (some mark) →
        ∃ later ∈ group.2, row.ts + h ≤ later.ts

/-- Some agent quotes on the row: the mid or the fair value is clear of both ends. -/
def QuotedOn (row : LiveRow) : Prop :=
  settlementAbstains row.price (1 / 50) = false ∨ settlementAbstains row.fv (1 / 50) = false

/-- Every row that is quoted on has a current reference that is not zero, and a series that reaches
every horizon. -/
def References (tape : List MakerRow) (horizonsS : List ℤ) : Prop :=
  ∀ row : LiveRow, row.toMakerRow ∈ tape → QuotedOn row →
    (∀ now, asOf MakerRow.ts (marketRows tape row.market) row.ts = some now → now.fv ≠ 0) ∧
    ∀ h ∈ horizonsS, ∃ later ∈ marketRows tape row.market, row.ts + h ≤ later.ts

variable {tape : List MakerRow} {horizonsS : List ℤ} {group : Market × List MakerRow}

theorem native_of_emitted (htape : Emitted tape) {row : MakerRow} (h : row ∈ tape) :
    Native row.fv := by
  obtain ⟨k, hlow, hhigh, hfv⟩ := (htape row h).1
  have hlow' : (0 : ℚ) ≤ k := by exact_mod_cast hlow
  have hhigh' : (k : ℚ) ≤ 10000 := by exact_mod_cast hhigh
  rw [Native, hfv]
  constructor <;> linarith

theorem bracket_ne_nil {anchor : ℚ} :
    bracket anchor (1 / 50) ≠ [] ↔ settlementAbstains anchor (1 / 50) = false := by
  unfold bracket
  cases settlementAbstains anchor (1 / 50) with
  | false => simp
  | true => simp

/-- A row that is quoted on has an agent that quotes on it. -/
theorem quotedOn_iff {row : LiveRow} :
    QuotedOn row ↔ ∃ agent ∈ [naive, candidate], quotesOn agent row ≠ [] := by
  rw [QuotedOn, ← bracket_ne_nil, ← bracket_ne_nil, ← (naive_anchored row).1,
    ← (txLineFair_anchored row).1]
  simp [quotesOn]

/-- A group is the series of its market. -/
theorem group_eq : ∀ {group : Market × List MakerRow}, group ∈ grouped MakerRow.market tape →
    ∀ {row : MakerRow}, row ∈ group.2 → row ∈ tape ∧ group.2 = marketRows tape row.market
  | (market, rows), hgroup, row, hrow => by
    obtain rfl := mem_grouped hgroup
    obtain ⟨hmem, hmarket⟩ := List.mem_filter.mp hrow
    rw [decide_eq_true_eq] at hmarket
    exact ⟨hmem, by rw [marketRows, hmarket]⟩

/-- The group of a row of the tape. -/
theorem exists_group {row : MakerRow} (h : row ∈ tape) :
    ∃ group ∈ grouped MakerRow.market tape, row ∈ group.2 ∧ group.2 = marketRows tape row.market := by
  have hperm : ((grouped MakerRow.market tape).flatMap Prod.snd).Perm tape := grouped_perm tape
  obtain ⟨group, hgroup, hrow⟩ := List.mem_flatMap.mp (hperm.mem_iff.mpr h)
  exact ⟨group, hgroup, hrow, (group_eq hgroup hrow).2⟩

/-- **The tape is scored** when no row that is quoted on starts from a zero reference. -/
theorem scoreTape_returns (hnative : ∀ row ∈ tape, Native row.fv)
    (hpositive : ∀ h ∈ horizonsS, 0 < h) :
    (∃ books, scoreTape tape horizonsS = .ok books) ↔
      horizonsS = [] ∨ ∀ group ∈ grouped MakerRow.market tape,
        ∀ agent ∈ [naive, candidate], NoZeroReference agent group.2 := by
  have hgroup : ∀ group ∈ grouped MakerRow.market tape, ∀ r ∈ group.2, Native r.fv :=
    fun group hg r hr => hnative r (group_eq hg hr).1
  rw [scoreTape, foldlM_returns]
  constructor
  · intro h
    by_cases hempty : horizonsS = []
    · exact .inl hempty
    · right
      intro group hg agent hagent
      obtain ⟨hours, htheirs⟩ := h group hg
      rcases List.mem_pair.mp hagent with rfl | rfl
      · exact ((scoreGroup_ok naive_anchored (hgroup group hg) hpositive).mp hours).resolve_left
          hempty
      · exact ((scoreGroup_ok txLineFair_anchored (hgroup group hg) hpositive).mp
          htheirs).resolve_left hempty
  · intro h group hg
    exact ⟨(scoreGroup_ok naive_anchored (hgroup group hg) hpositive).mpr
        (h.imp_right fun h => h group hg naive List.mem_cons_self),
      (scoreGroup_ok txLineFair_anchored (hgroup group hg) hpositive).mpr
        (h.imp_right fun h => h group hg candidate (List.mem_pair.mpr (.inr rfl)))⟩

/-- The pairs of a row that starts from a reference other than zero are scored. -/
theorem scored_of_ne_zero (hnative : ∀ row ∈ tape, Native row.fv)
    (hgroup : group ∈ grouped MakerRow.market tape) {agent : MarketMakerAgent}
    (hagent : agent ∈ [naive, candidate]) {row : LiveRow} (hrow : row ∈ liveRows group.2)
    {quote : TargetQuote} (hquote : quote ∈ quotesOn agent row) {h : ℤ} (hh : 0 < h)
    (hzero : NoZeroReference agent group.2) :
    ∃ mark, scorePair (refAt group.2) (agent.propose row.view) quote h = .ok (some mark) := by
  have hnative' : ∀ r ∈ group.2, Native r.fv := fun r hr => hnative r (group_eq hgroup hr).1
  obtain ⟨now, -, hnow, -⟩ := exists_references hrow hh
  have hne := hzero row hrow (List.ne_nil_of_mem hquote) now hnow
  have hpair : (∃ mark, scorePair (refAt group.2) (agent.propose row.view) quote h =
      .ok (some mark)) ∧ now.fv ≠ 0 ∨ (∃ e, scorePair (refAt group.2) (agent.propose row.view)
      quote h = .error e) ∧ now.fv = 0 := by
    rcases List.mem_pair.mp hagent with rfl | rfl
    · exact scorePair_row naive_anchored hnative' hrow hquote hh hnow
    · exact scorePair_row txLineFair_anchored hnative' hrow hquote hh hnow
  rcases hpair with ⟨hmark, -⟩ | ⟨-, hnow0⟩
  · exact hmark
  · exact absurd hnow0 hne

/-- **Only observed references are scored**, and the tape is scored, exactly when every row that is
quoted on has a current reference that is not zero and a series that reaches every horizon. -/
theorem scoresObserved_iff (htape : Emitted tape) (hpositive : ∀ h ∈ horizonsS, 0 < h) :
    ScoresObserved tape horizonsS ↔ horizonsS = [] ∨ References tape horizonsS := by
  have hnative : ∀ row ∈ tape, Native row.fv := fun row => native_of_emitted htape
  rw [ScoresObserved, scoreTape_returns hnative hpositive]
  constructor
  · rintro ⟨hempty | hzero, hobserved⟩
    · exact .inl hempty
    · right
      intro row hrow hquoted
      obtain ⟨group, hgroup, hmem, heq⟩ := exists_group hrow
      obtain ⟨agent, hagent, hquotes⟩ := quotedOn_iff.mp hquoted
      rw [← heq]
      refine ⟨hzero group hgroup agent hagent row (mem_liveRows.mpr hmem) hquotes, ?_⟩
      intro h hh
      obtain ⟨quote, hquote⟩ := List.exists_mem_of_ne_nil _ hquotes
      obtain ⟨mark, hmark⟩ := scored_of_ne_zero hnative hgroup hagent (mem_liveRows.mpr hmem)
        hquote (hpositive h hh) (hzero group hgroup agent hagent)
      exact hobserved group hgroup agent hagent row (mem_liveRows.mpr hmem) quote hquote h hh mark
        hmark
  · rintro (rfl | hreferences)
    · exact ⟨.inl rfl, by simp⟩
    · constructor
      · right
        intro group hgroup agent hagent row hrow hquotes
        obtain ⟨hmem, heq⟩ := group_eq hgroup (mem_liveRows.mp hrow)
        rw [heq]
        exact (hreferences row hmem (quotedOn_iff.mpr ⟨agent, hagent, hquotes⟩)).1
      · intro group hgroup agent hagent row hrow quote hquote h hh mark _
        obtain ⟨hmem, heq⟩ := group_eq hgroup (mem_liveRows.mp hrow)
        have hquoted := quotedOn_iff.mpr ⟨agent, hagent, List.ne_nil_of_mem hquote⟩
        rw [heq]
        exact (hreferences row hmem hquoted).2 h hh

/-- A tape that is quoted on once, before its end. -/
def twoTicks : List MakerRow :=
  [⟨1, "1X2|home|full", 0, 1 / 2, some (1 / 2)⟩, ⟨1, "1X2|home|full", 60, 11 / 20, none⟩]

theorem scoresObserved_twoTicks : ScoresObserved twoTicks [60] := by
  have htape : Emitted twoTicks := by
    intro row hrow
    rcases List.mem_pair.mp hrow with rfl | rfl
    · exact ⟨⟨5000, by decide, by decide, by norm_num⟩, by simp [Native]; norm_num⟩
    · exact ⟨⟨5500, by decide, by decide, by norm_num⟩, by simp⟩
  refine (scoresObserved_iff htape (by simp)).mpr (.inr ?_)
  intro row hrow _
  have hfirst : row.toMakerRow = ⟨1, "1X2|home|full", 0, 1 / 2, some (1 / 2)⟩ := by
    rcases List.mem_pair.mp hrow with h | h
    · exact h
    · exact absurd row.carries (by rw [h]; simp)
  rw [hfirst]
  constructor
  · intro now hnow
    have hknown : asOf MakerRow.ts (marketRows twoTicks (1, "1X2|home|full")) 0 =
        some ⟨1, "1X2|home|full", 0, 1 / 2, some (1 / 2)⟩ := by decide +kernel
    obtain rfl := Option.some.inj (hknown.symm.trans hnow)
    norm_num
  · intro h hh
    obtain rfl := List.mem_singleton.mp hh
    exact ⟨⟨1, "1X2|home|full", 60, 11 / 20, none⟩, by decide +kernel, by norm_num⟩

/-- A tick with a fair value of zero and a mid to quote on. -/
def zeroTick : List MakerRow := [⟨1, "1X2|home|full", 0, 0, some (1 / 2)⟩]

/-- The tape of that tick is not scored. -/
theorem zeroTick_aborts : Emitted zeroTick ∧ scoreTape zeroTick [60] = .error .refNowZero ∧
    ¬ ScoresObserved zeroTick [60] := by
  have herror : scoreTape zeroTick [60] = .error .refNowZero := by decide +kernel
  refine ⟨?_, herror, ?_⟩
  · intro row hrow
    obtain rfl := List.mem_singleton.mp hrow
    exact ⟨⟨0, by decide, by decide, by norm_num⟩, by simp [Native]; norm_num⟩
  · rintro ⟨⟨books, hbooks⟩, -⟩
    rw [herror] at hbooks
    exact nomatch hbooks

end Veridex.Maker
