import Veridex.DustExecution.NormalizedLadders

/-!
# The Polymarket resolver (`venues/polymarket_resolver.py`)

A market reference names one market of a reply: by the question it asks and the teams of the fixture, or,
in the legacy form, by its slug. The market is read for its condition, its tick and the tokens of its two
outcomes.

What the regexes find in a question and how team names are normalized are given, and so is the text of a
value that is no string.
-/

namespace Veridex.Venues

open Veridex.Lib Veridex.Py

/-- What `resolve_market` raises: `MarketUnavailable`, or another exception. -/
inductive ResolveError where
  | marketUnavailable (msg : String)
  | other (e : PyExc)
  deriving DecidableEq

/-- What the resolver is given. -/
structure ResolverGiven where
  format : Json.FloatFormat PyFloat
  valueText : Value → String
  decodedText : Decoded → String
  normalizeTeam : String → String
  /-- `_WIN_RE`: the team of a stripped question that asks whether it wins. -/
  winTeam : String → Option String
  /-- `_DRAW_RE`. -/
  asksDraw : String → Bool
  /-- `_OU_RE`: the lines in a question. -/
  ouLines : String → List PyFloat
  /-- `_HALF_RE`. -/
  namesHalf : String → Bool
  /-- `_MATCHUP_RE`. -/
  namesMatchup : String → Bool

/-- A market of a reply. -/
abbrev Market := List (String × Value)

/-- `s.split(sep)`. -/
def splitOnChar (sep : Char) : List Char → List (List Char)
  | [] => [[]]
  | c :: cs =>
    if c = sep then [] :: splitOnChar sep cs
    else match splitOnChar sep cs with
      | [] => [[c]]
      | part :: parts => (c :: part) :: parts

/-- `market_ref.split("|")`. -/
def refParts (marketRef : String) : List String :=
  (splitOnChar '|' marketRef.toList).map String.ofList

/-- `"|" in market_ref`. -/
def isStructured (marketRef : String) : Bool := '|' ∈ marketRef.toList

/-- A part of a reference, stripped. -/
def refPart (marketRef : String) (index : ℕ) (default : String) : String :=
  ((refParts marketRef)[index]?.map strip).getD default

/-- `_ref_kind`. -/
def refKind (marketRef : String) : String :=
  if isStructured marketRef then lower (refPart marketRef 0 "") else ""

/-- `_is_draw_ref`. -/
def isDrawRef (marketRef : String) : Bool :=
  2 ≤ (refParts marketRef).length && lower (refPart marketRef 0 "") = "1x2" &&
    lower (refPart marketRef 1 "") = "draw"

/-- `_lookup_slug`. -/
def lookupSlug (marketRef fixtureHint : String) : String :=
  if refKind marketRef = "ou" then fixtureHint ++ "-more-markets" else fixtureHint

variable (given : ResolverGiven)

/-! ## Selecting a market -/

/-- `str(market.get("question", ""))`. -/
def question (market : Market) : String :=
  ((market.lookup "question").getD (.str "")).text given.valueText

/-- What `_match_1x2` asks of a market. -/
def match1x2 (param : String) (homeTeam awayTeam : Option String) :
    Except ResolveError (Market → Bool) :=
  if param = "draw" then .ok fun market => given.asksDraw (question given market)
  else if param ≠ "home" ∧ param ≠ "away" then .error (.marketUnavailable "Unknown 1X2 side")
  else
    let team := (if param = "home" then homeTeam else awayTeam).getD ""
    if strip team = "" then .error (.marketUnavailable "needs the team identity to match by name")
    else .ok fun market => (given.winTeam (strip (question given market))).any fun winner =>
      given.normalizeTeam winner = given.normalizeTeam team

/-- `1e-9`. -/
def lineTolerance : PyFloat := .fin (1 / 10 ^ 9)

/-- `abs(a - b) < 1e-9`. -/
def sameLine (a b : PyFloat) : Bool :=
  let difference := a.sub b
  (if difference.lt (.fin 0) then difference.neg else difference).lt lineTolerance

/-- What `_match_ou` asks of a market. -/
def matchOu (line : String) : Except ResolveError (Market → Bool) :=
  match floatOfText line with
  | none => .error (.marketUnavailable "Malformed O/U line")
  | some targetLine => .ok fun market =>
    (given.ouLines (question given market)).any (sameLine · targetLine) &&
      !given.namesHalf (question given market) && given.namesMatchup (question given market)

/-- What `_select_market` asks of a market. -/
def marketTest (marketRef : String) (homeTeam awayTeam : Option String) :
    Except ResolveError (Market → Bool) :=
  let kind := lower (refPart marketRef 0 "")
  let param := refPart marketRef 1 ""
  let period := lower (refPart marketRef 2 "full")
  if period ≠ "" ∧ period ≠ "full" then .error (.marketUnavailable "Unsupported period")
  else if kind = "1x2" then match1x2 given (lower param) homeTeam awayTeam
  else if kind = "ou" then matchOu given param
  else .error (.marketUnavailable "Unknown market_ref type")

/-- `_select_market`. -/
def selectMarket (markets : List Market) (marketRef : String) (homeTeam awayTeam : Option String) :
    Except ResolveError Market := do
  match markets.filter (← marketTest given marketRef homeTeam awayTeam) with
  | [market] => return market
  | [] => .error (.marketUnavailable "No market in event matched")
  | _ => .error (.marketUnavailable "Ambiguous market selection")

/-! ## Reading a market -/

/-- `ResolvedMarket`. -/
structure ResolvedMarket extends DustExecution.ResolvedMarket where
  conditionId : String
  tickSize : PyFloat
  deriving DecidableEq

/-- `_OUTCOME_YES_LABELS`. -/
def outcomeYesLabels : List String := ["yes", "over"]

/-- `_OUTCOME_NO_LABELS`. -/
def outcomeNoLabels : List String := ["no", "under"]

/-- A field of a market; one that is missing is refused. -/
def marketField (market : Market) (name : String) : Except ResolveError Value :=
  match market.lookup name with
  | none => .error (.marketUnavailable "Malformed Gamma market")
  | some value => .ok value

/-- `json.loads` of a field; what is no text, or no JSON, is refused. -/
def loadsField (value : Value) : Except ResolveError Decoded :=
  match value with
  | .str text =>
    match Json.loads given.format text.toList with
    | none => .error (.marketUnavailable "Malformed Gamma market")
    | some decoded => .ok decoded
  | _ => .error (.marketUnavailable "Malformed Gamma market")

/-- `float` of the tick. An integer no float can hold raises what no handler here catches. -/
def tickField (value : Value) : Except ResolveError PyFloat :=
  match value.toFloat with
  | .ok tick => .ok tick
  | .error e =>
    if e.cls = .typeError ∨ e.cls = .valueError then .error (.marketUnavailable "Malformed Gamma market")
    else .error (.other e)

/-- The label of an outcome. -/
def outcomeLabel (outcome : Decoded) : String :=
  lower (strip (match outcome with
    | .str s => s
    | other => given.decodedText other))

/-- The tokens of the outcomes, the last of each kind; `null` where there is none. -/
def outcomeTokens (pairs : List (Decoded × Decoded)) : Decoded × Decoded :=
  pairs.foldl (fun tokens pair =>
    if outcomeLabel given pair.1 ∈ outcomeYesLabels then (pair.2, tokens.2)
    else if outcomeLabel given pair.1 ∈ outcomeNoLabels then (tokens.1, pair.2)
    else tokens) (.null, .null)

/-- The tokens of a market, as `ResolvedMarket` takes them. -/
def tokensMarket (conditionId : String) (tickSize : PyFloat) (drawMarket : Bool)
    (tokens : Decoded × Decoded) : Except ResolveError ResolvedMarket :=
  match tokens with
  | (.null, _) | (_, .null) => .error (.marketUnavailable "outcomes did not map to a yes/no pair")
  | (.str tokenIdYes, .str tokenIdNo) => .ok {
      tokenIdYes := tokenIdYes
      tokenIdNo := tokenIdNo
      drawMarket := drawMarket
      conditionId := conditionId
      tickSize := tickSize }
  | _ => .error (.other ⟨.valueError, "Input should be a valid string"⟩)

/-- The fields of a market, once they are read. -/
def parseFields (drawMarket : Bool) (conditionId : Value) (outcomes tokenIds : Decoded)
    (tickSize : PyFloat) : Except ResolveError ResolvedMarket :=
  match conditionId with
  | .str conditionId =>
    if conditionId = "" then .error (.marketUnavailable "Gamma market has no condition_id")
    else match outcomes, tokenIds with
      | .arr outcomes, .arr tokenIds =>
        if outcomes = [] ∨ outcomes.length ≠ tokenIds.length then
          .error (.marketUnavailable "Gamma market has malformed outcomes/clobTokenIds")
        else
          tokensMarket conditionId tickSize drawMarket (outcomeTokens given (outcomes.zip tokenIds))
      | _, _ => .error (.marketUnavailable "Gamma market has malformed outcomes/clobTokenIds")
  | _ => .error (.marketUnavailable "Gamma market has no condition_id")

/-- `_parse_gamma_market`. -/
def parseGammaMarket (market : Market) (drawMarket : Bool) : Except ResolveError ResolvedMarket := do
  let conditionId ← marketField market "conditionId"
  let outcomes ← loadsField given (← marketField market "outcomes")
  let tokenIds ← loadsField given (← marketField market "clobTokenIds")
  let tickSize ← tickField (← marketField market "orderPriceMinTickSize")
  parseFields given drawMarket conditionId outcomes tokenIds tickSize

/-! ## Resolving -/

/-- The markets of a reply. -/
def replyMarkets (raw : Value) : List Market :=
  (match raw with
    | .list items => items
    | raw => [raw]).filterMap fun raw : Value =>
      match raw with
      | .dict market => some market
      | _ => none

/-- `market.get("slug") == fixture_hint`. -/
def hasSlug (fixtureHint : String) (market : Market) : Bool :=
  match market.lookup "slug" with
  | some (.str slug) => slug = fixtureHint
  | _ => false

/-- `resolve_market`, with what the client replies to a slug. -/
def resolveMarket (client : String → Except PyExc Value) (marketRef fixtureHint : String)
    (homeTeam awayTeam : Option String) : Except ResolveError ResolvedMarket :=
  match client (lookupSlug marketRef fixtureHint) with
  | .error e => if e.isException then .error (.marketUnavailable "Gamma lookup failed")
    else .error (.other e)
  | .ok raw =>
    let markets := replyMarkets raw
    if isStructured marketRef then do
      let selected ← selectMarket given markets marketRef homeTeam awayTeam
      parseGammaMarket given selected (isDrawRef marketRef)
    else
      match markets.find? (hasSlug fixtureHint) with
      | none => .error (.marketUnavailable "No Gamma market found for slug")
      | some market => parseGammaMarket given market false

end Veridex.Venues
