import Veridex.Scoring.Metrics

/-!
# Proposals of a sealed run (`strategies/value.py`)

A score row that is valid, clears the edge and names a market and a side becomes a proposal, under the
number of the sealed decision it is correlated to: the last decision of its agent on its tick. An
agent's id is a text in a sealed run, and its tick an int.
-/

namespace Veridex.Strategies

open Veridex.Py Veridex.Lib Veridex.Runtime Veridex.Scoring

/-- `Proposal`. -/
structure Proposal where
  agentId : String
  sourceSequenceNo : ℤ
  tickSeq : ℤ
  marketKey : String
  side : String
  recomputedEdgeBps : ℤ
  kellyFraction : PyFloat
  referencePrice : PyFloat := .fin 0
  entryProbBps : ℤ := 0
  deriving DecidableEq, Repr

/-- The error of a value that a `Proposal` does not take. -/
def proposalError : PyExc := ⟨.valueError, "validation error for Proposal"⟩

/-- A value that must be a text. -/
def textField : Decoded → Except PyExc String
  | .str s => .ok s
  | _ => .error proposalError

/-- `isinstance(v, (int, float)) and not isinstance(v, bool)`: the float, or `0.0`. -/
def floatOrZero : Decoded → Except PyExc PyFloat
  | .int n => Decoded.toFloat (.int n)
  | .float x => .ok x
  | _ => .ok (.fin 0)

/-- `v or {}`. -/
def orEmpty (v : Decoded) : Decoded := if v.truthy then v else .obj []

section

variable (format : Json.FloatFormat PyFloat)

/-- `json.loads(text) if text else {}`. -/
def loadsOrEmpty (text : Option String) : Except PyExc Decoded :=
  match text with
  | some s => if s.isEmpty then .ok (.obj []) else loadsText format s
  | none => .ok (.obj [])

/-- The index while the events are walked: the tick, and the decision of each agent and tick. -/
structure SeqIndex where
  currentTickSeq : Option ℤ := none
  index : List ((String × ℤ) × ℤ) := []

/-- One event of `_decision_seq_index`. -/
def SeqIndex.add (s : SeqIndex) (event : RunEvent) : Except PyExc SeqIndex :=
  match event.eventType, s.currentTickSeq with
  | .tick, _ => do
    match ← (← loadsOrEmpty format event.stateSnapshotJson).get "tick_seq" .null with
    | .null => return s
    | tickSeq => return { s with currentTickSeq := some (← tickSeq.toInt) }
  | .decision, some tickSeq => do
    match ← (← loadsOrEmpty format event.resultPayloadJson).get "agent_id" .null with
    | .str agentId => return { s with index := ((agentId, tickSeq), event.sequenceNo) :: s.index }
    | _ => return s
  | _, _ => .ok s

/-- `_decision_seq_index`. -/
def decisionSeqIndex (runEvents : List RunEvent) : Except PyExc (List ((String × ℤ) × ℤ)) := do
  return (← (runEvents.mergeSort fun a b => a.sequenceNo ≤ b.sequenceNo).foldlM (SeqIndex.add format)
    {}).index

/-- One event of `_entry_market_index`. -/
def addEntryMarket (index : List (ℤ × Decoded)) (event : RunEvent) :
    Except PyExc (List (ℤ × Decoded)) :=
  if event.eventType ≠ .tick then .ok index
  else do
    let snapshot ← loadsOrEmpty format event.stateSnapshotJson
    match ← snapshot.get "tick_seq" .null with
    | .null => return index
    | tickSeq => return (← tickSeq.toInt, orEmpty (← snapshot.get "markets" (.obj []))) :: index

/-- `_entry_market_index`. -/
def entryMarketIndex (runEvents : List RunEvent) : Except PyExc (List (ℤ × Decoded)) :=
  runEvents.foldlM (addEntryMarket format) []

/-- `row.get("raw_prescore", {}).get("raw_action", {}).get("params", {}) or {}`. -/
def rowParams (row : Params) : Except PyExc Decoded := do
  let prescore ← Decoded.get (.obj row) "raw_prescore" (.obj [])
  let action ← prescore.get "raw_action" (.obj [])
  return orEmpty (← action.get "params" (.obj []))

/-- What is sealed of a side of a market: its price and its probability. -/
def entryOf (markets : Decoded) (marketKey side : String) : Except PyExc (PyFloat × ℤ) := do
  let market ← markets.get marketKey (.obj [])
  let price ← floatOrZero (← (orEmpty (← market.get "stable_price" .null)).get side .null)
  let prob ← (orEmpty (← market.get "stable_prob_bps" .null)).get side .null
  return (price, prob.properInt.getD 0)

/-- The proposal of a score row, if it is one. -/
def rowProposal (seqIndex : List ((String × ℤ) × ℤ)) (entryIndex : List (ℤ × Decoded))
    (minEdgeBps : ℤ) (row : Params) : Except PyExc (Option Proposal) :=
  if (field row "valid").isTrue = false then .ok none
  else match (field row "recomputed_edge_bps").properInt with
  | none => .ok none
  | some edge =>
    if edge < minEdgeBps then .ok none
    else do
      let params ← rowParams row
      let marketKey ← params.get "market_key" .null
      let side ← params.get "side" .null
      if !marketKey.truthy || !side.truthy then return none
      else
        let agentId ← Decoded.item (.obj row) (.str "agent_id")
        let tick ← Decoded.item (.obj row) (.str "tick_seq")
        match agentId, tick.properInt with
        | .str agentId, some tickSeq =>
          match seqIndex.lookup (agentId, tickSeq) with
          | none => return none
          | some sourceSeq =>
            let kelly ← floatOrZero (field row "kelly_fraction")
            let marketKey ← textField marketKey
            let side ← textField side
            let (price, prob) ← entryOf ((entryIndex.lookup tickSeq).getD (.obj [])) marketKey side
            return some {
              agentId := agentId
              sourceSequenceNo := sourceSeq
              tickSeq := tickSeq
              marketKey := marketKey
              side := side
              recomputedEdgeBps := edge
              kellyFraction := kelly
              referencePrice := price
              entryProbBps := prob }
        | _, _ => return none

/-- `value_proposals`. -/
def valueProposals (runResult : RunResult) (minEdgeBps : ℤ) : Except PyExc (List Proposal) := do
  let seqIndex ← decisionSeqIndex format runResult.runEvents
  let entryIndex ← entryMarketIndex format runResult.runEvents
  let found ← runResult.scoreRows.mapM (rowProposal seqIndex entryIndex minEdgeBps)
  return (found.filterMap id).mergeSort fun a b => a.sourceSequenceNo ≤ b.sourceSequenceNo

end

end Veridex.Strategies
