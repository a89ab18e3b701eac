import Veridex.Py.Decoded
import Veridex.Runtime.Evidence

/-!
# What a run is made of (`ingest/marketstate.py`, `runtime/schemas.py`)

`MarketState`, `AgentAction` and `RunEvent`, with the JSON they are dumped to and read back from.

A dictionary inside them is kept with its keys in order, which no function here can tell from the
order they were put in: dictionaries are looked up and dumped with sorted keys.

Results: `MarketState.ofJson_sorted` and `AgentAction.ofJson_sorted` (what is sealed is read back as
it was).
-/

namespace Veridex.Runtime

open Veridex.Py Veridex.Lib

/-- A dictionary of untyped values. -/
abbrev Params := Dict PyFloat

/-! ## Market states -/

/-- The markets of a state, as JSON. -/
def marketsJson (markets : List (String × Params)) : Decoded :=
  .obj (markets.map fun market => (market.1, .obj market.2))

/-- The scores of a state, as JSON. -/
def scoresJson (scores : List (String × ℤ)) : Decoded :=
  .obj (scores.map fun score => (score.1, .int score.2))

/-- `MarketState`. -/
structure MarketState where
  fixtureId : ℤ
  tickSeq : ℤ
  ts : ℤ
  phase : ℤ
  markets : List (String × Params)
  scores : List (String × ℤ)
  marketsCanonical : Json.Canonical (marketsJson markets)
  scoresCanonical : Json.Canonical (scoresJson scores)

/-- `model_dump`. -/
def MarketState.toJson (state : MarketState) : Decoded :=
  .obj [("fixture_id", .int state.fixtureId), ("tick_seq", .int state.tickSeq),
    ("ts", .int state.ts), ("phase", .int state.phase), ("markets", marketsJson state.markets),
    ("scores", scoresJson state.scores)]

/-- The markets some JSON holds. -/
def marketsOf : List (String × Decoded) → Option (List (String × Params))
  | [] => some []
  | (key, .obj market) :: rest => do
    return (key, market) :: (← marketsOf rest)
  | _ => none

/-- The scores some JSON holds. -/
def scoresOf : List (String × Decoded) → Option (List (String × ℤ))
  | [] => some []
  | (key, .int score) :: rest => do
    return (key, score) :: (← scoresOf rest)
  | _ => none

theorem marketsJson_of : ∀ {fields : List (String × Decoded)} {markets : List (String × Params)},
    marketsOf fields = some markets → marketsJson markets = .obj fields
  | [], _, h => by
    obtain rfl := Option.some.inj h
    rfl
  | (key, .obj market) :: rest, _, h => by
    obtain ⟨markets, hrest, hmarkets⟩ := Option.bind_eq_some_iff.mp h
    obtain rfl := Option.some.inj hmarkets
    have ih := marketsJson_of hrest
    simp only [marketsJson, Json.obj.injEq] at ih
    simp [marketsJson, ih]
  | (_, .null) :: _, _, h | (_, .bool _) :: _, _, h | (_, .int _) :: _, _, h
  | (_, .float _) :: _, _, h | (_, .str _) :: _, _, h | (_, .arr _) :: _, _, h => by
    simp [marketsOf] at h

theorem scoresJson_of : ∀ {fields : List (String × Decoded)} {scores : List (String × ℤ)},
    scoresOf fields = some scores → scoresJson scores = .obj fields
  | [], _, h => by
    obtain rfl := Option.some.inj h
    rfl
  | (key, .int score) :: rest, _, h => by
    obtain ⟨scores, hrest, hscores⟩ := Option.bind_eq_some_iff.mp h
    obtain rfl := Option.some.inj hscores
    have ih := scoresJson_of hrest
    simp only [scoresJson, Json.obj.injEq] at ih
    simp [scoresJson, ih]
  | (_, .null) :: _, _, h | (_, .bool _) :: _, _, h | (_, .obj _) :: _, _, h
  | (_, .float _) :: _, _, h | (_, .str _) :: _, _, h | (_, .arr _) :: _, _, h => by
    simp [scoresOf] at h

theorem marketsOf_json : ∀ markets : List (String × Params),
    marketsOf (markets.map fun market => (market.1, .obj market.2)) = some markets
  | [] => rfl
  | (key, market) :: rest => by simp [marketsOf, marketsOf_json rest]

theorem scoresOf_json : ∀ scores : List (String × ℤ),
    scoresOf (scores.map fun score => (score.1, .int score.2)) = some scores
  | [] => rfl
  | (key, score) :: rest => by simp [scoresOf, scoresOf_json rest]

/-- An int field of some JSON. -/
def intField (fields : List (String × Decoded)) (name : String) : Option ℤ :=
  match fields.lookup name with
  | some (.int n) => some n
  | _ => none

/-- An object field of some JSON, with its keys in order. -/
def objField (fields : List (String × Decoded)) (name : String) :
    Option (List (String × Decoded)) :=
  match fields.lookup name with
  | some (.obj items) => some (Json.sortedFields items)
  | _ => none

theorem canonical_of_objField {fields items : List (String × Decoded)} {name : String}
    (h : objField fields name = some items) : Json.Canonical (.obj items : Decoded) := by
  unfold objField at h
  split at h
  · obtain rfl := Option.some.inj h
    exact Json.canonical_sortedFields _
  · simp at h

/-- `MarketState(**fields)`, of a dump. -/
def MarketState.ofFields (fields : List (String × Decoded)) : Option MarketState :=
  match hmarkets : (objField fields "markets").bind marketsOf,
      hscores : (objField fields "scores").bind scoresOf with
  | some markets, some scores => do
    return {
      fixtureId := ← intField fields "fixture_id"
      tickSeq := ← intField fields "tick_seq"
      ts := ← intField fields "ts"
      phase := ← intField fields "phase"
      markets := markets
      scores := scores
      marketsCanonical := by
        obtain ⟨items, hitems, hof⟩ := Option.bind_eq_some_iff.mp hmarkets
        rw [marketsJson_of hof]
        exact canonical_of_objField hitems
      scoresCanonical := by
        obtain ⟨items, hitems, hof⟩ := Option.bind_eq_some_iff.mp hscores
        rw [scoresJson_of hof]
        exact canonical_of_objField hitems }
  | _, _ => none

/-- `MarketState(**j)`, of a dump. -/
def MarketState.ofJson : Decoded → Except PyExc MarketState
  | .obj fields => match MarketState.ofFields fields with
    | some state => .ok state
    | none => .error ⟨.valueError, "validation error for MarketState"⟩
  | _ => .error ⟨.typeError, "argument after ** must be a mapping"⟩

/-! ## Actions -/

/-- `SportsActionType`. -/
inductive SportsActionType where
  | wait
  | flagValue
  | followMomentum
  | fade
  | widenOrSuspend
  deriving DecidableEq, Repr

def SportsActionType.text : SportsActionType → String
  | wait => "WAIT"
  | flagValue => "FLAG_VALUE"
  | followMomentum => "FOLLOW_MOMENTUM"
  | fade => "FADE"
  | widenOrSuspend => "WIDEN_OR_SUSPEND"

/-- `SportsActionType(s)`. -/
def SportsActionType.ofText (s : String) : Option SportsActionType :=
  if s = "WAIT" then some wait
  else if s = "FLAG_VALUE" then some flagValue
  else if s = "FOLLOW_MOMENTUM" then some followMomentum
  else if s = "FADE" then some fade
  else if s = "WIDEN_OR_SUSPEND" then some widenOrSuspend
  else none

theorem SportsActionType.ofText_text (type : SportsActionType) : ofText type.text = some type := by
  cases type <;> decide

/-- `AgentAction`. -/
structure AgentAction where
  type : SportsActionType
  params : Params
  canonical : Json.CanonicalFields params

/-- `model_dump`. -/
def AgentAction.toJson (action : AgentAction) : Decoded :=
  .obj [("type", .str action.type.text), ("params", .obj action.params)]

/-- `AgentAction(**fields)`. -/
def AgentAction.ofFields (fields : List (String × Decoded)) : Option AgentAction :=
  match fields.lookup "type" with
  | some (.str s) => do
    let type ← SportsActionType.ofText s
    match fields.lookup "params" with
    | none => return ⟨type, [], trivial⟩
    | some (.obj params) =>
      return ⟨type, Json.sortedFields params, Json.canonical_sortedFields params⟩
    | some _ => none
  | _ => none

/-- `AgentAction(**j)`. -/
def AgentAction.ofJson : Decoded → Except PyExc AgentAction
  | .obj fields => match AgentAction.ofFields fields with
    | some action => .ok action
    | none => .error ⟨.valueError, "validation error for AgentAction"⟩
  | _ => .error ⟨.typeError, "argument after ** must be a mapping"⟩

/-- `action.params.get(name)`. -/
def AgentAction.param (action : AgentAction) (name : String) : Decoded :=
  (action.params.lookup name).getD .null

/-! ## Events -/

/-- The event types the orchestrator emits. -/
inductive EventType where
  | tick
  | decision
  | error
  | windowConfig
  deriving DecidableEq, Repr

def EventType.text : EventType → String
  | tick => "tick"
  | decision => "decision"
  | error => "error"
  | windowConfig => "window_config"

/-- What an event says, apart from its number. -/
structure EventBody where
  eventType : EventType
  stateSnapshotJson : Option String := none
  actionPayloadJson : Option String := none
  validationPayloadJson : Option String := none
  resultPayloadJson : Option String := none
  deriving DecidableEq, Repr

/-- `RunEvent`. -/
structure RunEvent extends EventBody where
  sequenceNo : ℤ
  deriving DecidableEq, Repr

/-- A text field that may be absent. -/
def optionalText : Option String → Decoded
  | none => .null
  | some s => .str s

/-- `model_dump`. -/
def RunEvent.toDict (event : RunEvent) : Params :=
  [("sequence_no", .int event.sequenceNo), ("event_type", .str event.eventType.text),
    ("state_snapshot_json", optionalText event.stateSnapshotJson),
    ("action_payload_json", optionalText event.actionPayloadJson),
    ("validation_payload_json", optionalText event.validationPayloadJson),
    ("result_payload_json", optionalText event.resultPayloadJson)]

/-! ## Reading back what is sealed -/

section RoundTrip

variable (format : Json.FloatFormat PyFloat)

/-- `serialize_payload`, as an event holds it. -/
def payloadText (payload : Decoded) : String := String.ofList (serializePayload format payload)

/-- `json.loads(s)`. -/
def loadsText (s : String) : Except PyExc Decoded :=
  match Json.loads format s.toList with
  | some j => .ok j
  | none => .error ⟨.valueError, "Expecting value"⟩

/-- What is sealed is read back with its keys in order. -/
theorem loadsText_payloadText (payload : Decoded) :
    loadsText format (payloadText format payload) = .ok payload.sorted := by
  simp [loadsText, payloadText, serializePayload]

theorem intField_sorted (fields : List (String × Decoded)) (name : String) :
    intField (Json.sortedFields fields) name = intField fields name := by
  unfold intField
  rw [Json.lookup_sortedFields]
  cases fields.lookup name with
  | none => rfl
  | some j => cases j <;> simp [Json.sorted]

theorem objField_sorted {fields items : List (String × Decoded)} {name : String}
    (h : fields.lookup name = some (.obj items)) (hitems : Json.Canonical (.obj items : Decoded)) :
    objField (Json.sortedFields fields) name = some items := by
  have heq : Json.sortedFields items = items := Json.CanonicalFields.sortedFields_eq hitems
  unfold objField
  rw [Json.lookup_sortedFields, h]
  simp [Json.sorted, heq]

/-- What the fields say is the state. -/
theorem MarketState.ofFields_eq {fields : List (String × Decoded)} {state : MarketState}
    (hfixture : intField fields "fixture_id" = some state.fixtureId)
    (htick : intField fields "tick_seq" = some state.tickSeq)
    (hts : intField fields "ts" = some state.ts)
    (hphase : intField fields "phase" = some state.phase)
    (hmarkets : (objField fields "markets").bind marketsOf = some state.markets)
    (hscores : (objField fields "scores").bind scoresOf = some state.scores) :
    MarketState.ofFields fields = some state := by
  obtain ⟨fixtureId, tickSeq, ts, phase, markets, scores, _, _⟩ := state
  unfold MarketState.ofFields
  split
  · rename_i markets' scores' hmarkets' hscores'
    obtain rfl : markets' = markets := Option.some.inj (hmarkets'.symm.trans hmarkets)
    obtain rfl : scores' = scores := Option.some.inj (hscores'.symm.trans hscores)
    simp [hfixture, htick, hts, hphase]
  · rename_i hnot
    exact absurd hscores (hnot markets scores hmarkets)

/-- **A state** is read back as it was. -/
theorem MarketState.ofJson_sorted (state : MarketState) :
    MarketState.ofJson state.toJson.sorted = .ok state := by
  have hfields : MarketState.ofFields (Json.sortedFields [("fixture_id", .int state.fixtureId),
      ("tick_seq", .int state.tickSeq), ("ts", .int state.ts), ("phase", .int state.phase),
      ("markets", marketsJson state.markets), ("scores", scoresJson state.scores)]) =
      some state := by
    apply MarketState.ofFields_eq
    · rw [intField_sorted]
      rfl
    · rw [intField_sorted]
      rfl
    · rw [intField_sorted]
      rfl
    · rw [intField_sorted]
      rfl
    · rw [objField_sorted rfl state.marketsCanonical]
      exact marketsOf_json state.markets
    · rw [objField_sorted rfl state.scoresCanonical]
      exact scoresOf_json state.scores
  simp only [MarketState.toJson, Json.sorted, MarketState.ofJson, hfields]

/-- **An action** is read back as it was. -/
theorem AgentAction.ofJson_sorted (action : AgentAction) :
    AgentAction.ofJson action.toJson.sorted = .ok action := by
  have hfields : AgentAction.ofFields (Json.sortedFields [("type", .str action.type.text),
      ("params", .obj action.params)]) = some action := by
    have htype : (Json.sortedFields [("type", .str action.type.text),
        ("params", (.obj action.params : Decoded))]).lookup "type" = some (.str action.type.text) := by
      rw [Json.lookup_sortedFields]
      simp [Json.sorted]
    have hparams : (Json.sortedFields [("type", .str action.type.text),
        ("params", (.obj action.params : Decoded))]).lookup "params" = some (.obj action.params) := by
      rw [Json.lookup_sortedFields]
      have hlookup : [("type", .str action.type.text),
          ("params", (.obj action.params : Decoded))].lookup "params" = some (.obj action.params) :=
        rfl
      rw [hlookup, Option.map_some, Json.sorted, action.canonical.sortedFields_eq]
    unfold AgentAction.ofFields
    simp only [htype, hparams, SportsActionType.ofText_text, Option.bind_eq_bind, Option.bind_some]
    have hsorted : Json.sortedFields action.params = action.params := action.canonical.sortedFields_eq
    congr
  simp only [AgentAction.toJson, Json.sorted, AgentAction.ofJson, hfields]

end RoundTrip

end Veridex.Runtime
