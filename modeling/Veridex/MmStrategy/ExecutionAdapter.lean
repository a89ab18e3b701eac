import Veridex.DustExecution.Facade
import Veridex.Lib.Dialogue
import Veridex.MmStrategy.Decide

/-!
# The execution adapter (`mm_strategy/execution_adapter.py`)

`executePlan` walks a decision's plan in order. Each actionable leg becomes one bound request and one
call of the facade, and the first uncertain outcome freezes the rest. The facade is the environment
of a `Dialogue`: it may answer a result or raise anything, and `raised` embeds the adapter's own
errors among what it may raise.

Results: `walk_ask` (where the walk stands when it asks), `executePlan_standing`.
-/

namespace Veridex.MmStrategy

open Veridex.Py Veridex.Lib Veridex.Policy
open DustExecution (MMExecutionToolRequest MMExecutionToolResult MMIntentParams IntentKind
  StrategyExperimentManifest TimeInForce ExecutionMode EvidenceClass Digests)

/-! ## Outcomes -/

/-- `_ACTIONABLE_KINDS`. -/
def NeutralIntentKind.isActionable : NeutralIntentKind → Bool
  | .placeQuote | .replaceQuote | .cancelAllOrders => true
  | .abstain => false

/-- `_has_pending_reconciliation`. -/
def hasPendingReconciliation (result : MMExecutionToolResult) : Bool :=
  result.reasonCodes.any (· = "attempt_pending_reconciliation")

/-- `_is_withheld`. -/
def isWithheld (result : MMExecutionToolResult) : Bool :=
  if result.executionStatus = .notArmed then true
  else result.executionReasonCodes.any (· ∈ ["mode_b_not_armed", "operator_interlock_unproven"])

/-- `is_possibly_unresolved`. -/
def isPossiblyUnresolved (result : MMExecutionToolResult) : Bool :=
  result.executionStatus = .submitted || hasPendingReconciliation result

/-- `freezes_fresh_writes`. -/
def freezesFreshWrites (result : MMExecutionToolResult) : Bool :=
  isPossiblyUnresolved result || isWithheld result

/-- `LegOutcome`. -/
structure LegOutcome where
  leg : NeutralIntent
  result : Option MMExecutionToolResult
  attempted : Bool
  deriving DecidableEq

/-- `PlanExecutionResult`. -/
structure PlanExecutionResult where
  outcomes : List LegOutcome
  frozen : Bool
  awaitingReconciliation : Bool
  deriving DecidableEq

/-! ## The request of a leg -/

/-- `NEUTRAL_TO_R4A`. -/
def neutralToR4A : NeutralIntentKind → IntentKind
  | .placeQuote => .makeQuote
  | .replaceQuote => .cancelReplace
  | .cancelAllOrders => .cancelAll
  | .abstain => .noQuote

/-- `_ROLE_TO_R4A_SIDE`. -/
def roleToR4ASide : LegRole → Option String
  | .bid => some "BUY"
  | .ask => some "SELL"
  | .reduce => none

/-- `R4ARequestConfig`. Its two sizing inputs are not read here. -/
structure R4ARequestConfig where
  strategyId : String
  strategyConfigHash : String
  policyHash : String
  sessionId : String
  manifestHash : String
  mode : ExecutionMode
  tif : TimeInForce

/-- The literal of a time in force. -/
def tifText : TimeInForce → String
  | .fak => "FAK"
  | .fok => "FOK"
  | .gtc => "GTC"
  | .gtd => "GTD"

/-- A maker's time in force on the wire. -/
def MakerTif.timeInForce : MakerTif → TimeInForce
  | .gtc => .gtc
  | .gtd => .gtd

/-- `_intent_params`. -/
def intentParams (leg : NeutralIntent) (config : R4ARequestConfig) (tokenId : String) :
    MMIntentParams :=
  let side := leg.legRole.bind roleToR4ASide
  let restsOrder := side.isSome
  { tokenId := if restsOrder then some tokenId else none
    side := side
    price := leg.price.attach.map fun price => ⟨price.1, leg.price_mem price.1 price.2⟩
    tif := if restsOrder then some config.tif else none
    clientOrderId := leg.clientOrderId
    replacesClientOrderId := leg.replacesClientOrderId }

/-- What the adapter is given besides the decision. -/
structure PlanInputs where
  platform : Platform
  digests : Digests
  observation : StrategyObservation
  config : R4ARequestConfig
  manifest : StrategyExperimentManifest
  envelope : PolicyEnvelope
  strategyConfig : StrategyConfig

/-- `MMExecutionToolRequest.build`: the declared pins that are not the admitted ones. -/
def pinMismatches (inputs : PlanInputs) : List String :=
  (if inputs.config.manifestHash ≠ inputs.digests.manifestHash inputs.manifest then
    ["manifest_hash"] else []) ++
  (if inputs.config.policyHash ≠ inputs.digests.policyHash inputs.envelope then
    ["policy_hash"] else []) ++
  if inputs.config.strategyConfigHash ≠ inputs.manifest.strategyConfigHash then
    ["strategy_config_hash"] else []

/-- `build_r4a_request`. -/
def buildR4ARequest (inputs : PlanInputs) (decision : StrategyDecision) (leg : NeutralIntent) :
    Except PyExc MMExecutionToolRequest :=
  if decision.observationHash ≠ inputs.platform.observationHash inputs.observation then
    .error ⟨.valueError, "build_r4a_request: decision is not bound to the reviewed observation " ++
      "(decision.observation_hash != observation.observation_hash()) — refusing to derive a target " ++
      "token from an unbound/substituted observation (Gate#3 CRITICAL-1: a caller cannot route a " ++
      "price decided from one admitted token onto a different admitted token)"⟩
  else if leg ∉ decision.intentPlan then
    .error ⟨.valueError, "build_r4a_request: leg is not part of the bound decision's intent_plan — " ++
      "refusing to build a request for a leg the reviewed decision never committed to (Gate#3 " ++
      "CRITICAL-1)"⟩
  else if pinMismatches inputs ≠ [] then
    .error ⟨.valueError, "MM execution request fails closed: declared hashes do not match the " ++
      "admitted pins for " ++ ", ".intercalate (pinMismatches inputs)⟩
  else
    .ok {
      intentKind := neutralToR4A leg.kind
      intentParams := intentParams leg inputs.config inputs.observation.tokenId
      strategyId := inputs.config.strategyId
      strategyConfigHash := inputs.config.strategyConfigHash
      policyHash := inputs.config.policyHash
      sessionId := inputs.config.sessionId
      manifestHash := inputs.config.manifestHash
      evidenceClass := .experimentalDust
      mode := inputs.config.mode }

/-! ## The walk -/

variable {ε : Type}

/-- A plan under execution: it asks the facade. -/
abbrev PlanDialogue (ε : Type) := Dialogue MMExecutionToolRequest MMExecutionToolResult ε

/-- The loop of `execute_plan`. -/
def walk (raised : PyExc → ε) (inputs : PlanInputs) (decision : StrategyDecision) :
    List NeutralIntent → List LegOutcome → Bool → Bool → PlanDialogue ε PlanExecutionResult
  | [], outcomes, frozen, awaitingReconciliation => pure ⟨outcomes, frozen, awaitingReconciliation⟩
  | leg :: legs, outcomes, frozen, awaitingReconciliation =>
    if frozen || !leg.kind.isActionable then
      walk raised inputs decision legs (outcomes ++ [⟨leg, none, false⟩]) frozen
        awaitingReconciliation
    else
      match buildR4ARequest inputs decision leg with
      | .error e => .done (.error (raised e))
      | .ok request => do
        let result ← Dialogue.call request
        walk raised inputs decision legs (outcomes ++ [⟨leg, some result, true⟩])
          (frozen || freezesFreshWrites result)
          (awaitingReconciliation || isPossiblyUnresolved result)

/-- `execute_plan`. `reject_mixed_phase_plan` is a field of the decision. -/
def executePlan (raised : PyExc → ε) (inputs : PlanInputs) (decision : StrategyDecision) :
    PlanDialogue ε PlanExecutionResult :=
  if inputs.config.tif ≠ inputs.strategyConfig.tif.timeInForce then
    .done (.error (raised ⟨.valueError, "execute_plan: declared R4ARequestConfig.tif ('" ++
      tifText inputs.config.tif ++ "') does not match the pinned, hash-bound StrategyConfig.tif ('" ++
      tifText inputs.strategyConfig.tif.timeInForce ++ "') — the wire time-in-force must be the " ++
      "SINGLE hash-bound maker authority (covered by strategy_config_hash), never a divergent " ++
      "request-config value (Gate #4 F-MINOR-2 / REQ-056: TIF is a config-pinned choice from R4-A's " ++
      "accepted maker set \x7bGTC, GTD\x7d)"⟩))
  else walk raised inputs decision decision.intentPlan [] false false

/-! ## Where the walk stands -/

section Walk

variable {raised : PyExc → ε} {inputs : PlanInputs} {decision : StrategyDecision}

/-- The legs that reach the wire. -/
def actionableLegs (legs : List NeutralIntent) : List NeutralIntent :=
  legs.filter (·.kind.isActionable)

@[simp] theorem actionableLegs_nil : actionableLegs [] = [] := rfl

/-- What the walk of some legs comes to, before the next call of the facade. -/
inductive Walked (raised : PyExc → ε) (inputs : PlanInputs) (decision : StrategyDecision)
    (legs : List NeutralIntent) (frozen awaitingReconciliation : Bool) :
    PlanDialogue ε PlanExecutionResult → Prop
  | finished (outcomes : List LegOutcome) :
      Walked raised inputs decision legs frozen awaitingReconciliation
        (.done (.ok ⟨outcomes, frozen, awaitingReconciliation⟩))
  | unbuilt (leg : NeutralIntent) (e : PyExc) (live : frozen = false)
      (error : buildR4ARequest inputs decision leg = .error e) :
      Walked raised inputs decision legs frozen awaitingReconciliation (.done (.error (raised e)))
  | asks (leg : NeutralIntent) (rest : List NeutralIntent) (request : MMExecutionToolRequest)
      (outcomes : List LegOutcome) (live : frozen = false)
      (next : actionableLegs legs = leg :: actionableLegs rest)
      (built : buildR4ARequest inputs decision leg = .ok request) :
      Walked raised inputs decision legs frozen awaitingReconciliation
        (.ask request (Dialogue.onAnswer fun result =>
          walk raised inputs decision rest (outcomes ++ [⟨leg, some result, true⟩])
            (freezesFreshWrites result)
            (awaitingReconciliation || isPossiblyUnresolved result)))

/-- A leg that is passed over changes nothing. -/
theorem Walked.skip {legs : List NeutralIntent} {frozen awaitingReconciliation : Bool}
    {d : PlanDialogue ε PlanExecutionResult}
    (h : Walked raised inputs decision legs frozen awaitingReconciliation d) {leg : NeutralIntent}
    (hskip : (frozen || !leg.kind.isActionable) = true) :
    Walked raised inputs decision (leg :: legs) frozen awaitingReconciliation d := by
  cases h with
  | finished outcomes => exact .finished outcomes
  | unbuilt other e live error => exact .unbuilt other e live error
  | asks other rest request outcomes live next built =>
    have hidle : leg.kind.isActionable = false := by simpa [live] using hskip
    exact .asks other rest request outcomes live (by simpa [actionableLegs, hidle] using next) built

/-- **The walk** calls the facade for the next actionable leg, or ends. -/
theorem walk_walked (legs : List NeutralIntent) (outcomes : List LegOutcome)
    (frozen awaitingReconciliation : Bool) :
    Walked raised inputs decision legs frozen awaitingReconciliation
      (walk raised inputs decision legs outcomes frozen awaitingReconciliation) := by
  induction legs generalizing outcomes with
  | nil => exact .finished outcomes
  | cons leg legs ih =>
    rw [walk]
    split_ifs with hskip
    · exact (ih _).skip hskip
    · simp only [Bool.or_eq_true, Bool.not_eq_true', not_or, Bool.not_eq_true,
        Bool.not_eq_false] at hskip
      obtain ⟨hlive, hactionable⟩ := hskip
      cases hbuilt : buildR4ARequest inputs decision leg with
      | error e => exact .unbuilt leg e hlive hbuilt
      | ok request =>
        simp only [Dialogue.call_bind, hlive, Bool.false_or]
        exact .asks leg legs request outcomes rfl (by simp [actionableLegs, hactionable]) hbuilt

/-- An answer after which the walk goes on. -/
def GoesOn : Except ε MMExecutionToolResult → Prop
  | .ok result => freezesFreshWrites result = false
  | .error _ => False

@[simp] theorem goesOn_ok {result : MMExecutionToolResult} :
    GoesOn (.ok result : Except ε MMExecutionToolResult) ↔ freezesFreshWrites result = false :=
  Iff.rfl

/-- An answer that leaves the book in doubt. -/
def InDoubt : Except ε MMExecutionToolResult → Prop
  | .ok result => isPossiblyUnresolved result = true
  | .error _ => True

theorem not_inDoubt_of_goesOn {answer : Except ε MMExecutionToolResult} (h : GoesOn answer) :
    ¬ InDoubt answer := by
  cases answer with
  | error e => exact h.elim
  | ok result =>
    simp only [GoesOn, freezesFreshWrites, Bool.or_eq_false_iff] at h
    simp [InDoubt, h.1]

/-- Requests of a plan: its first actionable legs, each built and asked once, in order. -/
def AsksInOrder (inputs : PlanInputs) (decision : StrategyDecision)
    (requests : List MMExecutionToolRequest) : Prop :=
  ∃ legs, legs <+: actionableLegs decision.intentPlan ∧
    legs.mapM (buildR4ARequest inputs decision) = .ok requests

theorem AsksInOrder.nil : AsksInOrder inputs decision [] := ⟨[], List.nil_prefix, rfl⟩

/-- A log of calls of the facade. -/
abbrev PlanLog (ε : Type) := List (MMExecutionToolRequest × Except ε MMExecutionToolResult)

/-- What the facade was asked so far, in order. -/
def submitted (log : PlanLog ε) : List MMExecutionToolRequest := log.map Prod.fst

/-- Where a plan stands after a log. -/
inductive PlanAt (raised : PyExc → ε) (inputs : PlanInputs) (decision : StrategyDecision)
    (log : PlanLog ε) : PlanDialogue ε PlanExecutionResult → Prop
  | walking (legs rest : List NeutralIntent) (results : List MMExecutionToolResult)
      (outcomes : List LegOutcome)
      (split : actionableLegs decision.intentPlan = legs ++ actionableLegs rest)
      (built : legs.mapM (buildR4ARequest inputs decision) = .ok (submitted log))
      (answers : log.map Prod.snd = results.map .ok) :
      PlanAt raised inputs decision log (walk raised inputs decision rest outcomes
        (results.any freezesFreshWrites) (results.any isPossiblyUnresolved))
  | escaped (init : PlanLog ε) (request : MMExecutionToolRequest) (e : ε)
      (last : log = init ++ [(request, .error e)]) (continued : ∀ entry ∈ init, GoesOn entry.2) :
      PlanAt raised inputs decision log (.done (.error e))
  | refused (error : PyExc) (unasked : log = []) (isException : error.isException = true) :
      PlanAt raised inputs decision log (.done (.error (raised error)))

theorem goesOn_of_live {log : PlanLog ε} {results : List MMExecutionToolResult}
    (answers : log.map Prod.snd = results.map .ok)
    (live : results.any freezesFreshWrites = false) : ∀ entry ∈ log, GoesOn entry.2 := by
  intro entry hentry
  have hanswer : entry.2 ∈ results.map Except.ok := answers ▸ List.mem_map_of_mem hentry
  obtain ⟨result, hresult, hok⟩ := List.mem_map.mp hanswer
  rw [← hok]
  simpa using List.any_eq_false.mp live result hresult

theorem mapM_concat_ok {α β ε : Type} {f : α → Except ε β} {xs : List α} {ys : List β} {x : α}
    {y : β} (hxs : xs.mapM f = .ok ys) (hx : f x = .ok y) :
    (xs ++ [x]).mapM f = .ok (ys ++ [y]) := by
  rw [List.mapM_append, hxs, List.mapM_cons, hx]
  rfl

theorem executePlan_at {log : PlanLog ε} {d : PlanDialogue ε PlanExecutionResult}
    (h : Dialogue.Heard (executePlan raised inputs decision) log d) :
    PlanAt raised inputs decision log d := by
  refine h.invariant (PlanAt raised inputs decision) ?_ ?_
  · unfold executePlan
    split_ifs with htif
    · exact .refused _ rfl rfl
    · exact .walking [] decision.intentPlan [] [] (by simp) rfl rfl
  · intro log question next answer hat
    generalize hd : Dialogue.ask question next = d at hat
    cases hat with
    | escaped | refused => cases hd
    | walking legs rest results outcomes split built answers =>
      have hwalked : Walked raised inputs decision rest (results.any freezesFreshWrites)
          (results.any isPossiblyUnresolved) (walk raised inputs decision rest outcomes
            (results.any freezesFreshWrites) (results.any isPossiblyUnresolved)) :=
        walk_walked rest outcomes _ _
      rw [← hd] at hwalked
      cases hwalked with
      | asks leg after request outcomes' live hnext hbuilt =>
        have hgoesOn := goesOn_of_live answers live
        cases answer with
        | error e => exact .escaped log question e rfl hgoesOn
        | ok result =>
          have hsplit : actionableLegs decision.intentPlan =
              (legs ++ [leg]) ++ actionableLegs after := by
            rw [split, hnext, List.append_assoc, List.singleton_append]
          have hlog : (log ++ [(question, Except.ok result)]).map Prod.snd =
              (results ++ [result]).map (Except.ok (ε := ε)) := by
            simp [answers]
          have hsubmitted : (legs ++ [leg]).mapM (buildR4ARequest inputs decision) =
              .ok (submitted (log ++ [(question, .ok result)])) := by
            simpa [submitted] using mapM_concat_ok built hbuilt
          have hat : PlanAt raised inputs decision _ _ := .walking (legs ++ [leg]) after
            (results ++ [result]) (outcomes' ++ [⟨leg, some result, true⟩]) hsplit hsubmitted hlog
          simpa [live, Dialogue.onAnswer] using hat

/-- What is known of a plan after a log: what it asks next, what it returned, or what it raised. -/
inductive PlanStanding (raised : PyExc → ε) (inputs : PlanInputs) (decision : StrategyDecision)
    (log : PlanLog ε) : PlanDialogue ε PlanExecutionResult → Prop
  | asks (request : MMExecutionToolRequest)
      (next : Except ε MMExecutionToolResult → PlanDialogue ε PlanExecutionResult)
      (continued : ∀ entry ∈ log, GoesOn entry.2)
      (inOrder : AsksInOrder inputs decision (submitted log ++ [request])) :
      PlanStanding raised inputs decision log (.ask request next)
  | returned (plan : PlanExecutionResult)
      (answered : ∀ entry ∈ log, ∃ result, entry.2 = .ok result)
      (awaiting : plan.awaitingReconciliation = true ↔ ∃ entry ∈ log, InDoubt entry.2)
      (frozen : plan.frozen = true ↔ ∃ entry ∈ log, ¬ GoesOn entry.2) :
      PlanStanding raised inputs decision log (.done (.ok plan))
  | refused (error : PyExc) (continued : ∀ entry ∈ log, GoesOn entry.2)
      (isException : error.isException = true) :
      PlanStanding raised inputs decision log (.done (.error (raised error)))
  | escaped (init : PlanLog ε) (request : MMExecutionToolRequest) (e : ε)
      (last : log = init ++ [(request, .error e)]) (continued : ∀ entry ∈ init, GoesOn entry.2) :
      PlanStanding raised inputs decision log (.done (.error e))

theorem buildR4ARequest_error {leg : NeutralIntent} {e : PyExc}
    (h : buildR4ARequest inputs decision leg = .error e) : e.isException = true := by
  unfold buildR4ARequest at h
  split_ifs at h <;> (rw [← Except.error.inj h]; rfl)

theorem exists_entry_iff {log : PlanLog ε} {results : List MMExecutionToolResult}
    (answers : log.map Prod.snd = results.map .ok)
    {P : Except ε MMExecutionToolResult → Prop} {p : MMExecutionToolResult → Bool}
    (hp : ∀ result, P (.ok result) ↔ p result = true) :
    results.any p = true ↔ ∃ entry ∈ log, P entry.2 := by
  rw [List.any_eq_true]
  constructor
  · rintro ⟨result, hresult, hpass⟩
    have hanswer : Except.ok result ∈ log.map Prod.snd := answers ▸ List.mem_map_of_mem hresult
    obtain ⟨entry, hentry, hok⟩ := List.mem_map.mp hanswer
    exact ⟨entry, hentry, hok ▸ (hp result).mpr hpass⟩
  · rintro ⟨entry, hentry, hpass⟩
    have hanswer : entry.2 ∈ results.map Except.ok := answers ▸ List.mem_map_of_mem hentry
    obtain ⟨result, hresult, hok⟩ := List.mem_map.mp hanswer
    exact ⟨result, hresult, (hp result).mp (hok ▸ hpass)⟩

/-- **A plan after any answers**: the requests are its first actionable legs in order, it asks again
only while every answer lets it go on, and it returns with a mark iff an answer is in doubt. -/
theorem executePlan_standing {log : PlanLog ε} {d : PlanDialogue ε PlanExecutionResult}
    (h : Dialogue.Heard (executePlan raised inputs decision) log d) :
    PlanStanding raised inputs decision log d := by
  cases executePlan_at h with
  | escaped init request e last continued => exact .escaped init request e last continued
  | refused error unasked isException =>
    subst unasked
    exact .refused error (by simp) isException
  | walking legs rest results outcomes split built answers =>
    have hanswered : ∀ entry ∈ log, ∃ result, entry.2 = .ok result := by
      intro entry hentry
      have hanswer : entry.2 ∈ results.map Except.ok := answers ▸ List.mem_map_of_mem hentry
      obtain ⟨result, -, hok⟩ := List.mem_map.mp hanswer
      exact ⟨result, hok.symm⟩
    generalize hd : walk raised inputs decision rest outcomes (results.any freezesFreshWrites)
      (results.any isPossiblyUnresolved) = d
    have hwalked : Walked raised inputs decision rest (results.any freezesFreshWrites)
        (results.any isPossiblyUnresolved) (walk raised inputs decision rest outcomes
          (results.any freezesFreshWrites) (results.any isPossiblyUnresolved)) :=
      walk_walked rest outcomes _ _
    rw [hd] at hwalked
    cases hwalked with
    | finished outcomes =>
      exact .returned _ hanswered (exists_entry_iff answers fun result => Iff.rfl)
        (exists_entry_iff (P := fun answer => ¬ GoesOn answer) answers fun result => by simp)
    | unbuilt leg e live error =>
      exact .refused e (goesOn_of_live answers live) (buildR4ARequest_error error)
    | asks leg after request outcomes' live next hbuilt =>
      refine .asks request _ (goesOn_of_live answers live) ⟨legs ++ [leg], ?_, ?_⟩
      · rw [split, next]
        exact ⟨actionableLegs after, by simp⟩
      · exact mapM_concat_ok built hbuilt

end Walk

end Veridex.MmStrategy
