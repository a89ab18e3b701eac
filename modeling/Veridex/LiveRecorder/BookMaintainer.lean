import Veridex.Py.Text

/-!
# The book-state maintainer (`live_recorder/ws_book_source.py`, `live_recorder/sources.py`)

A `BookState` retains one token's book as two `price -> size` maps, in insertion order; a `book`
frame seeds it, a `price_change` frame merges deltas into it and checks the frame's own
`best_bid` / `best_ask`, and a gap, a stale or malformed delta or a failed check discards it.

A call that raises keeps what it had written, so the calls return their outcome beside what they
leave. Payloads are decoded JSON (`Value`); the text of a `side` that is no text is a parameter.
A `nan` price is a key of its own each time, as each `float("nan")` is an object of its own.
A token id that is no text but can be a key never names a seeded book: `BookSnapshot.token_id` is a
`str`.
-/

namespace Veridex.WsBook

open Veridex.Py Veridex.Lib

/-! ## Levels and ladders -/

/-- `BookLevel`: a native price and a non-negative size. -/
structure BookLevel where
  price : PyFloat
  size : PyFloat
  price_mem : ((PyFloat.fin 0).le price && price.le (.fin 1)) = true
  size_nonneg : size.lt (.fin 0) = false

/-- `BookLevel(price=…, size=…)`. -/
def BookLevel.make (price size : PyFloat) : Except PyExc BookLevel :=
  if hprice : ((PyFloat.fin 0).le price && price.le (.fin 1)) = true then
    if hsize : size.lt (.fin 0) = false then .ok ⟨price, size, hprice, hsize⟩
    else .error ⟨.valueError, "size must be >= 0"⟩
  else .error ⟨.valueError, "price must be a native probability in [0, 1]"⟩

/-- The pair a level was made from. -/
def BookLevel.pair (level : BookLevel) : PyFloat × PyFloat := (level.price, level.size)

theorem BookLevel.make_eq_ok {price size : PyFloat} {level : BookLevel} :
    BookLevel.make price size = .ok level → level.pair = (price, size) := by
  unfold BookLevel.make
  split_ifs
  · rintro ⟨⟩
    rfl
  · simp
  · simp

/-- Asks ascending by price. -/
def sortAsks (levels : List BookLevel) : List BookLevel :=
  levels.insertionSort fun a b => a.price.le b.price = true

/-- Bids descending by price. -/
def sortBids (levels : List BookLevel) : List BookLevel :=
  levels.insertionSort fun a b => b.price.le a.price = true

/-- A `price -> size` map, in insertion order. -/
abbrev Ladder := List (PyFloat × PyFloat)

/-- Two prices are one key. -/
def samePrice (a b : PyFloat) : Bool := a != .nan && a == b

/-- `book[price] = size`. -/
def setLevel (price size : PyFloat) : Ladder → Ladder
  | [] => [(price, size)]
  | (p, s) :: rest =>
    if samePrice p price then (p, size) :: rest else (p, s) :: setLevel price size rest

/-- `book.pop(price, None)`. -/
def popLevel (price : PyFloat) : Ladder → Ladder
  | [] => []
  | (p, s) :: rest => if samePrice p price then rest else (p, s) :: popLevel price rest

/-- One change of a ladder: a zero size deletes the level. -/
def changeLevel (price size : PyFloat) (ladder : Ladder) : Ladder :=
  if size = .fin 0 then popLevel price ladder else setLevel price size ladder

/-- `{lvl.price: lvl.size for lvl in levels}`. -/
def ladderOf (levels : List BookLevel) : Ladder :=
  levels.foldl (fun ladder level => setLevel level.price level.size ladder) []

/-- The levels of a ladder that are shown. -/
def shown (ladder : Ladder) : Ladder := ladder.filter fun level => (PyFloat.fin 0).lt level.2

/-- The shown levels, validated again. -/
def levelsOf (ladder : Ladder) : Except PyExc (List BookLevel) :=
  (shown ladder).mapM fun level => BookLevel.make level.1 level.2

/-- `max(prices)`, or no price. -/
def maxPrice : List PyFloat → Option PyFloat
  | [] => none
  | p :: ps => some (ps.foldl (fun best p => if best.lt p then p else best) p)

/-- `min(prices)`, or no price. -/
def minPrice : List PyFloat → Option PyFloat
  | [] => none
  | p :: ps => some (ps.foldl (fun best p => if p.lt best then p else best) p)

/-- `(a + b) / 2.0`. -/
def midOf (a b : PyFloat) : PyFloat :=
  match a.add b with
  | .fin q => .fin (q / 2)
  | x => x

/-! ## Snapshots -/

/-- `BookSnapshot`; `is_snapshot` is always true. -/
structure BookSnapshot where
  tokenId : String
  venueMarketRef : String
  bookTs : ℤ
  tickSize : PyFloat
  minPriceIncrement : PyFloat
  bids : List BookLevel
  asks : List BookLevel

/-- `BookSnapshot(…)`: the id and the ref must be texts. -/
def BookSnapshot.make (tokenId venueMarketRef : Value) (bookTs : ℤ)
    (tickSize minPriceIncrement : PyFloat) (bids asks : List BookLevel) :
    Except PyExc BookSnapshot :=
  match tokenId, venueMarketRef with
  | .str tokenId, .str venueMarketRef =>
    .ok ⟨tokenId, venueMarketRef, bookTs, tickSize, minPriceIncrement, bids, asks⟩
  | _, _ => .error ⟨.valueError, "Input should be a valid string"⟩

/-- A decoded JSON object. -/
abbrev Payload := List (String × Value)

/-- `payload.get(key)`. -/
def field (payload : Payload) (key : String) : Value := (payload.lookup key).getD .none

/-- `level[key]`. -/
def item (level : Value) (key : String) : Except PyExc Value :=
  match level with
  | .dict items => match items.lookup key with
    | some v => .ok v
    | none => .error ⟨.exception, key⟩
  | _ => .error ⟨.typeError, "indices must be integers"⟩

/-- `_coerce_ms`. -/
def coerceMs (raw : Value) : Except PyExc ℤ :=
  match raw with
  | .none | .str "" => .ok 0
  | raw => raw.toInt

/-- `_levels_from_side`. -/
def levelsFromSide (side : Value) : Except PyExc (List BookLevel) := do
  let rows ← (side.or (.list [])).iter
  rows.mapM fun level => do
    let price ← (← item level "price").toFloat
    let size ← (← item level "size").toFloat
    BookLevel.make price size

/-- `book_snapshot_from_json`. -/
def bookSnapshotFromJson (book : Payload) (tokenId venueMarketRef : Value)
    (tickSize minPriceIncrement : PyFloat) : Except PyExc BookSnapshot := do
  let bookTs ← coerceMs (field book "timestamp")
  let asks ← levelsFromSide (field book "asks")
  let bids ← levelsFromSide (field book "bids")
  BookSnapshot.make tokenId venueMarketRef bookTs tickSize minPriceIncrement (sortBids bids)
    (sortAsks asks)

/-! ## One token's book -/

/-- `BookState`. -/
structure BookState where
  tokenId : Value
  tickSize : PyFloat
  minPriceIncrement : PyFloat
  venueMarketRef : Value
  bids : Ladder := []
  asks : Ladder := []
  seeded : Bool := false
  lastTs : ℤ := 0
  bestBid : Option PyFloat := none
  bestAsk : Option PyFloat := none
  mid : Option PyFloat := none

namespace BookState

/-- `recompute`. -/
def recompute (state : BookState) : BookState :=
  let bestBid := maxPrice (state.bids.map Prod.fst)
  let bestAsk := minPrice (state.asks.map Prod.fst)
  { state with
    bestBid := bestBid
    bestAsk := bestAsk
    mid := match bestBid, bestAsk with
      | some bid, some ask => some (midOf bid ask)
      | _, _ => none }

/-- `invalidate`. -/
def invalidate (state : BookState) : BookState :=
  { state with
    bids := [], asks := [], seeded := false, bestBid := none, bestAsk := none, mid := none }

/-- `to_snapshot`. -/
def toSnapshot (state : BookState) : Except PyExc BookSnapshot := do
  let bids ← levelsOf state.bids
  let asks ← levelsOf state.asks
  BookSnapshot.make state.tokenId state.venueMarketRef state.lastTs state.tickSize
    state.minPriceIncrement (sortBids bids) (sortAsks asks)

end BookState

/-- The side of a book a change is for. -/
inductive BookSide where
  | bids
  | asks
  deriving DecidableEq, Repr

/-- `str(change.get("side", "")).upper()`, as far as the merge reads it. -/
def sideOf (textOf : Value → String) (change : Payload) : Option BookSide :=
  let side := upper (((change.lookup "side").getD (.str "")).text textOf)
  if side = "BUY" then some .bids else if side = "SELL" then some .asks else none

/-- `float(change[key])` under the handler of a malformed change: `none` is an exception it
catches. An `OverflowError` is none of them. -/
def numberIn (change : Payload) (key : String) : Except PyExc (Option PyFloat) :=
  match change.lookup key with
  | none => .ok none
  | some v => match v.toFloat with
    | .ok x => .ok (some x)
    | .error e => if e.cls = .typeError ∨ e.cls = .valueError then .ok none else .error e

/-- The price and the size of a change, in this order. -/
def levelIn (change : Payload) : Except PyExc (Option (PyFloat × PyFloat)) := do
  let some price ← numberIn change "price" | return none
  let some size ← numberIn change "size" | return none
  return some (price, size)

/-- A change merged into its side. -/
def BookState.change (state : BookState) (side : BookSide) (price size : PyFloat) : BookState :=
  match side with
  | .bids => { state with bids := changeLevel price size state.bids }
  | .asks => { state with asks := changeLevel price size state.asks }

/-- The loop over a token's changes: how it ended, and the book it leaves. It ends with the last
applied change, or with `none` at a malformed one. -/
def mergeChanges (textOf : Value → String) (state : BookState) (lastApplied : Option Payload) :
    List Payload → Except PyExc (Option (Option Payload)) × BookState
  | [] => (.ok (some lastApplied), state)
  | change :: changes =>
    match sideOf textOf change with
    | none => mergeChanges textOf state lastApplied changes
    | some side => match levelIn change with
      | .error e => (.error e, state)
      | .ok none => (.ok none, state)
      | .ok (some (price, size)) =>
        mergeChanges textOf (state.change side price size) (some change) changes

/-- `math.isclose(a, b, abs_tol=1e-9)`. -/
def isClose (a b : PyFloat) : Bool :=
  match a, b with
  | .fin a, .fin b => |a - b| ≤ max (1 / 10 ^ 9 * max |a| |b|) (1 / 10 ^ 9)
  | .posInf, .posInf | .negInf, .negInf => true
  | _, _ => false

/-- `_side_matches`. -/
def sideMatches (computed : Option PyFloat) (raw : Value) : Except PyExc Bool :=
  match raw with
  | .none | .str "" => .ok computed.isNone
  | raw => do
    let value ← raw.toFloat
    if value.le (.fin 0) then return computed.isNone
    match computed with
    | none => return false
    | some computed => return isClose computed value

/-- `_topofbook_matches`, where a change was applied. -/
def topOfBookMatches (state : BookState) : Option Payload → Except PyExc Bool
  | none => .ok true
  | some change => do
    if ← sideMatches state.bestBid (field change "best_bid") then
      sideMatches state.bestAsk (field change "best_ask")
    else return false

/-- One token's part of a `price_change` frame, on its seeded book: whether the merge stands, and
the book it leaves. -/
def mergeAsset (textOf : Value → String) (ts : ℤ) (state : BookState) (changes : List Payload) :
    Except PyExc Bool × BookState :=
  if ts < state.lastTs then (.ok false, state.invalidate)
  else match mergeChanges textOf state none changes with
    | (.error e, state) => (.error e, state)
    | (.ok none, state) => (.ok false, state.invalidate)
    | (.ok (some lastApplied), state) =>
      let state := { state with lastTs := ts }.recompute
      match topOfBookMatches state lastApplied with
      | .error e => (.error e, state)
      | .ok true => (.ok true, state)
      | .ok false => (.ok false, state.invalidate)

/-! ## The maintainer -/

/-- The frames the stream surfaces: those `_parse_frame` knows, and its own gap marker. -/
inductive EventType where
  | book
  | priceChange
  | tickSizeChange
  | gap
  deriving DecidableEq, Repr

/-- `VenueBookFrame`. -/
structure VenueBookFrame where
  recvTs : ℤ
  eventType : EventType
  tokenId : Value
  payload : Payload

/-- `TokenResolution`. -/
structure TokenResolution where
  tickSize : PyFloat
  minPriceIncrement : PyFloat
  venueMarketRef : String

/-- `BookMidChange`. -/
structure BookMidChange where
  tokenId : Value
  recvTs : ℤ
  arrivalSeq : ℕ
  mid : PyFloat
  bookTsMs : ℤ
  bestBid : Option PyFloat
  bestAsk : Option PyFloat

/-- `BookStateMaintainer`. -/
structure BookStateMaintainer where
  resolutions : String → Option TokenResolution
  books : String → Option BookState := fun _ => none
  seq : ℕ := 0

/-- What naming an id as a key gives: its text; `none` for one that names no seeded book. -/
def assetKey : Value → Except PyExc (Option String)
  | .str asset => .ok (some asset)
  | .list _ | .dict _ => .error ⟨.typeError, "unhashable type"⟩
  | _ => .ok none

/-- `by_asset.setdefault(asset_id, []).append(change)`. -/
def addChange (asset : String) (change : Payload) :
    List (String × List Payload) → List (String × List Payload)
  | [] => [(asset, [change])]
  | (a, changes) :: rest =>
    if a = asset then (a, changes ++ [change]) :: rest
    else (a, changes) :: addChange asset change rest

/-- The fan-out of a frame's changes, by asset. -/
def fanOut (byAsset : List (String × List Payload)) :
    List Value → Except PyExc (List (String × List Payload))
  | [] => .ok byAsset
  | change :: changes => do
    let asset ← assetKey (← change.get "asset_id")
    match change, asset with
    | .dict change, some asset => fanOut (addChange asset change byAsset) changes
    | _, _ => fanOut byAsset changes

/-- The changes a `price_change` frame carries, by asset. -/
def changesByAsset (payload : Payload) : Except PyExc (List (String × List Payload)) := do
  fanOut [] (← ((payload.lookup "price_changes").getD (.list [])).iter)

namespace BookStateMaintainer

variable (maintainer : BookStateMaintainer)

/-- The books with one of them written. -/
def setBook (token : String) (state : BookState) : BookStateMaintainer :=
  { maintainer with books := Function.update maintainer.books token (some state) }

/-- `latest_snapshot`. -/
def latestSnapshot (token : String) : Except PyExc (Option BookSnapshot) :=
  match maintainer.books token with
  | none => .ok none
  | some state => if state.seeded then some <$> state.toSnapshot else .ok none

/-- `self._resolutions.get(token_id)`. -/
def resolution : Value → Option TokenResolution
  | .str token => maintainer.resolutions token
  | _ => none

/-- The state of a token referenced for the first time. -/
def newState (tokenId market : Value) : BookState :=
  match maintainer.resolution tokenId with
  | some res =>
    { tokenId := tokenId
      tickSize := res.tickSize
      minPriceIncrement := res.minPriceIncrement
      venueMarketRef := .str res.venueMarketRef }
  | none =>
    { tokenId := tokenId
      tickSize := .fin (1 / 100)
      minPriceIncrement := .fin (1 / 100)
      venueMarketRef := market.or tokenId }

/-- `_get_or_create`, with the key the state is kept under. -/
def getOrCreate (tokenId market : Value) :
    Except PyExc (Option String × BookState) × BookStateMaintainer :=
  match assetKey tokenId with
  | .error e => (.error e, maintainer)
  | .ok none => (.ok (none, maintainer.newState tokenId market), maintainer)
  | .ok (some token) =>
    let state := (maintainer.books token).getD (maintainer.newState tokenId market)
    (.ok (some token, state), maintainer.setBook token state)

/-- `_emit_if_moved`. -/
def emitIfMoved (state : BookState) (recvTs : ℤ) (oldMid : Option PyFloat) :
    List BookMidChange × BookStateMaintainer :=
  match state.mid with
  | none => ([], maintainer)
  | some mid =>
    if mid ≠ .nan ∧ some mid = oldMid then ([], maintainer)
    else
      ([⟨state.tokenId, recvTs, maintainer.seq + 1, mid, state.lastTs, state.bestBid,
        state.bestAsk⟩], { maintainer with seq := maintainer.seq + 1 })

end BookStateMaintainer

/-- A side under its canonical name, where only the other spelling is there. -/
def renameSide (name old : String) (payload : Payload) : Payload :=
  match payload.lookup name, payload.lookup old with
  | none, some side => (name, side) :: payload
  | _, _ => payload

/-- `book_json`: the payload of a book frame under its canonical side names. -/
def canonicalSides (payload : Payload) : Payload :=
  renameSide "asks" "sells" (renameSide "bids" "buys" payload)

/-- A book seeded from a snapshot. -/
def BookState.seed (state : BookState) (snap : BookSnapshot) (ts : ℤ) : BookState :=
  { state with
    bids := ladderOf snap.bids, asks := ladderOf snap.asks, seeded := true, lastTs := ts }.recompute

namespace BookStateMaintainer

variable (maintainer : BookStateMaintainer)

/-- `_apply_book`. -/
def applyBook (frame : VenueBookFrame) : Except PyExc (List BookMidChange) × BookStateMaintainer :=
  match frame.tokenId with
  | .none => (.ok [], maintainer)
  | tokenId => match maintainer.getOrCreate tokenId (field frame.payload "market") with
    | (.error e, maintainer) => (.error e, maintainer)
    | (.ok (key, state), maintainer) =>
      match bookSnapshotFromJson (canonicalSides frame.payload) tokenId state.venueMarketRef
          state.tickSize state.minPriceIncrement with
      | .error e => (.error e, maintainer)
      | .ok snap => match coerceMs (field frame.payload "timestamp"), key with
        | .error e, _ => (.error e, maintainer)
        -- not reached: a snapshot's id is a text
        | .ok _, none => (.ok [], maintainer)
        | .ok ts, some token =>
          let seeded := state.seed snap ts
          let (changes, maintainer) :=
            (maintainer.setBook token seeded).emitIfMoved seeded frame.recvTs state.mid
          (.ok changes, maintainer)

/-- The loop of `_apply_price_change` over the assets of a frame. -/
def mergeAssets (textOf : Value → String) (recvTs ts : ℤ) (maintainer : BookStateMaintainer) :
    List (String × List Payload) → Except PyExc (List BookMidChange) × BookStateMaintainer
  | [] => (.ok [], maintainer)
  | (asset, changes) :: rest =>
    match maintainer.books asset with
    | none => mergeAssets textOf recvTs ts maintainer rest
    | some state =>
      if state.seeded then
        match mergeAsset textOf ts state changes with
        | (.error e, merged) => (.error e, maintainer.setBook asset merged)
        | (.ok false, merged) =>
          mergeAssets textOf recvTs ts (maintainer.setBook asset merged) rest
        | (.ok true, merged) =>
          let (emitted, maintainer) :=
            (maintainer.setBook asset merged).emitIfMoved merged recvTs state.mid
          let (result, maintainer) := mergeAssets textOf recvTs ts maintainer rest
          (result.map (emitted ++ ·), maintainer)
      else mergeAssets textOf recvTs ts maintainer rest

/-- `_apply_price_change`. -/
def applyPriceChange (textOf : Value → String) (frame : VenueBookFrame) :
    Except PyExc (List BookMidChange) × BookStateMaintainer :=
  match coerceMs (field frame.payload "timestamp"), changesByAsset frame.payload with
  | .error e, _ => (.error e, maintainer)
  | .ok _, .error e => (.error e, maintainer)
  | .ok ts, .ok byAsset => mergeAssets textOf frame.recvTs ts maintainer byAsset

/-- `_apply_tick_size`. -/
def applyTickSize (frame : VenueBookFrame) : Except PyExc Unit × BookStateMaintainer :=
  match frame.tokenId with
  | .none => (.ok (), maintainer)
  | tokenId => match maintainer.getOrCreate tokenId (field frame.payload "market") with
    | (.error e, maintainer) => (.error e, maintainer)
    | (.ok (key, state), maintainer) => match field frame.payload "new_tick_size" with
      | .none | .str "" => (.ok (), maintainer)
      | newTick => match newTick.toFloat, key with
        | .error e, _ => (.error e, maintainer)
        | .ok _, none => (.ok (), maintainer)
        | .ok tick, some token =>
          (.ok (), maintainer.setBook token
            { state with tickSize := tick, minPriceIncrement := tick })

/-- `apply_frame`. -/
def applyFrame (textOf : Value → String) (frame : VenueBookFrame) :
    Except PyExc (List BookMidChange) × BookStateMaintainer :=
  match frame.eventType with
  | .gap =>
    (.ok [], { maintainer with
      books := fun token => (maintainer.books token).map BookState.invalidate })
  | .book => maintainer.applyBook frame
  | .priceChange => maintainer.applyPriceChange textOf frame
  | .tickSizeChange =>
    let (result, maintainer) := maintainer.applyTickSize frame
    (result.map fun _ => [], maintainer)

end BookStateMaintainer

end Veridex.WsBook
