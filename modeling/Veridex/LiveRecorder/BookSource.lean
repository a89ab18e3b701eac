import Veridex.Lib.Run
import Veridex.LiveRecorder.BookMaintainer

/-!
# The streamed book source (`live_recorder/ws_book_source.py`)

`WsBookDepthSource` keeps a cache entry per token beside the maintainer's books: the last snapshot,
its arrival clock and whether it is gapped. A frame that raises gaps every entry and leaves the
books as they are.

* `Delivery` is one frame handed to `_on_frame`. The walk over the frame's tokens is a walk over a
  `set`, so its order is a part of the delivery.
* `standing` is the book a token's deliveries vouch for: the last `book` frame applied since the
  token was gapped, with the later deltas merged and checked.
-/

namespace Veridex.WsBook

open Veridex.Py Veridex.Lib

/-! ## The source -/

/-- `_CacheEntry`. -/
structure CacheEntry where
  snapshot : Option BookSnapshot
  lastRecvTs : ℤ
  gapped : Bool

/-- `WsBookDepthSource`, between two frames. -/
structure WsBookDepthSource where
  maxCacheAgeMs : ℤ
  maintainer : BookStateMaintainer
  entries : String → Option CacheEntry := fun _ => none

/-- The ids a frame names, in the payload's order. -/
def frameTokenIds (frame : VenueBookFrame) : Except PyExc (List String) :=
  match frame.eventType with
  | .book | .tickSizeChange => return (← assetKey frame.tokenId).toList
  | .priceChange => do
    let changes ← ((frame.payload.lookup "price_changes").getD (.list [])).iter
    let assets ← changes.mapM fun change => do assetKey (← change.get "asset_id")
    return assets.filterMap id
  | .gap => .ok []

/-- An order to walk the frame's `set` of ids in. -/
def IsWalk (frame : VenueBookFrame) (order : List String) : Prop :=
  ∀ ids, frameTokenIds frame = .ok ids → order.Nodup ∧ ∀ token, token ∈ order ↔ token ∈ ids

def CacheEntry.gap (entry : CacheEntry) : CacheEntry := { entry with gapped := true }

namespace WsBookDepthSource

/-- Every entry gapped. -/
def gapAll (source : WsBookDepthSource) : WsBookDepthSource :=
  { source with entries := fun token => (source.entries token).map CacheEntry.gap }

/-- The walk over the tokens a frame touched. -/
def refresh (recvTs : ℤ) (source : WsBookDepthSource) :
    List String → Except PyExc Unit × WsBookDepthSource
  | [] => (.ok (), source)
  | token :: order => match source.maintainer.latestSnapshot token with
    | .error e => (.error e, source)
    | .ok (some snap) =>
      refresh recvTs
        { source with
          entries := Function.update source.entries token (some ⟨some snap, recvTs, false⟩) } order
    | .ok none =>
      refresh recvTs
        { source with
          entries :=
            Function.update source.entries token ((source.entries token).map CacheEntry.gap) } order

variable (textOf : Value → String)

/-- `_process_frame`. -/
def processFrame (source : WsBookDepthSource) (frame : VenueBookFrame) (order : List String) :
    Except PyExc Unit × WsBookDepthSource :=
  match source.maintainer.applyFrame textOf frame with
  | (.error e, maintainer) => (.error e, { source with maintainer := maintainer })
  | (.ok _, maintainer) =>
    let source := { source with maintainer := maintainer }
    if frame.eventType = .gap then (.ok (), source.gapAll)
    else match frameTokenIds frame with
      | .error e => (.error e, source)
      | .ok _ => source.refresh frame.recvTs order

/-- `_on_frame`. -/
def onFrame (source : WsBookDepthSource) (frame : VenueBookFrame) (order : List String) :
    WsBookDepthSource :=
  match source.processFrame textOf frame order with
  | (.ok _, source) => source
  | (.error _, source) => source.gapAll

/-- `fetch_book`, at the clock `now`. -/
def fetchBook (source : WsBookDepthSource) (token : String) (now : ℤ) :
    Except PyExc (Option BookSnapshot) :=
  match source.entries token with
  | none => .ok none
  | some entry => match entry.snapshot with
    | none => .ok none
    | some snapshot =>
      if entry.gapped then
        .error ⟨.staleVenueBook, "venue book is disconnected / mid-resync — " ++
          "refusing to serve a stale snapshot"⟩
      else if source.maxCacheAgeMs < now - entry.lastRecvTs then
        .error ⟨.staleVenueBook, "venue book cache is stale — refusing to serve as fresh"⟩
      else .ok (some snapshot)

end WsBookDepthSource

/-! ## Runs -/

/-- One frame handed to `_on_frame`: the order its tokens were walked in, and whether its processing
raised. -/
structure Delivery where
  frame : VenueBookFrame
  order : List String
  raised : Bool

/-- One delivery. -/
def step (textOf : Value → String) (source : WsBookDepthSource) (delivery : Delivery)
    (source' : WsBookDepthSource) : Prop :=
  IsWalk delivery.frame delivery.order ∧
    delivery.raised = !(source.processFrame textOf delivery.frame delivery.order).1.isOk ∧
    source' = source.onFrame textOf delivery.frame delivery.order

/-- The source before the first frame. -/
def WsBookDepthSource.start (resolutions : String → Option TokenResolution) (maxCacheAgeMs : ℤ) :
    WsBookDepthSource :=
  { maxCacheAgeMs := maxCacheAgeMs, maintainer := { resolutions := resolutions } }

/-! ## The book the deliveries vouch for -/

/-- A book: its two ladders, and the venue's clock of its last frame. -/
structure StandingBook where
  bids : Ladder
  asks : Ladder
  ts : ℤ

/-- The book a `book` frame carries. -/
def bookIn (payload : Payload) : Option StandingBook := do
  let sides := canonicalSides payload
  let ts ← (coerceMs (field sides "timestamp")).toOption
  let asks ← (levelsFromSide (field sides "asks")).toOption
  let bids ← (levelsFromSide (field sides "bids")).toOption
  return ⟨ladderOf (sortBids bids), ladderOf (sortAsks asks), ts⟩

/-- The changes a `price_change` frame carries for a token, where it names the token. -/
def deltaFor (token : String) (payload : Payload) : Option (List Payload) :=
  match changesByAsset payload with
  | .ok byAsset => byAsset.lookup token
  | .error _ => none

/-- The changes of a delta that name a side of the book. -/
def sided (textOf : Value → String) (changes : List Payload) : List (BookSide × Payload) :=
  changes.filterMap fun change => (sideOf textOf change).map fun side => (side, change)

/-- One change merged. -/
def StandingBook.change (book : StandingBook) (change : BookSide × Payload) :
    Option StandingBook :=
  match levelIn change.2 with
  | .ok (some (price, size)) => match change.1 with
    | .bids => some { book with bids := changeLevel price size book.bids }
    | .asks => some { book with asks := changeLevel price size book.asks }
  | _ => none

/-- The best prices a change states are the book's own. -/
def StandingBook.checks (book : StandingBook) (change : Payload) : Bool :=
  (sideMatches (maxPrice (book.bids.map Prod.fst)) (field change "best_bid")).toOption = some true &&
    (sideMatches (minPrice (book.asks.map Prod.fst)) (field change "best_ask")).toOption = some true

/-- A delta of the venue's time `ts` merged into a book: it is no older than the book, and the last
change merged states the best prices the merge arrives at. -/
def StandingBook.merge (textOf : Value → String) (book : StandingBook) (ts : ℤ)
    (changes : List Payload) : Option StandingBook :=
  if ts < book.ts then none
  else match (sided textOf changes).foldlM StandingBook.change book with
    | none => none
    | some merged =>
      if (sided textOf changes).getLast?.all fun change => merged.checks change.2 then
        some { merged with ts := ts }
      else none

/-- What one more delivery makes of the book vouched for: a frame that raised, a gap and a delta that
does not merge leave none. -/
def standingAfter (textOf : Value → String) (token : String) (book : Option StandingBook)
    (delivery : Delivery) : Option StandingBook :=
  let frame := delivery.frame
  if delivery.raised then none
  else match frame.eventType, frame.tokenId with
    | .gap, _ => none
    | .book, .str asset => if asset = token then bookIn frame.payload else book
    | .priceChange, _ => match deltaFor token frame.payload with
      | none => book
      | some changes => do
        let ts ← (coerceMs (field frame.payload "timestamp")).toOption
        (← book).merge textOf ts changes
    | _, _ => book

/-- The book the deliveries vouch for: the last `book` frame applied since the token was gapped, with
every later delta of the token merged. -/
def standing (textOf : Value → String) (token : String) (deliveries : List Delivery) :
    Option StandingBook :=
  deliveries.foldl (standingAfter textOf token) none

/-- A snapshot shows a book: its levels are the book's levels of positive size. -/
def Shows (snap : BookSnapshot) (book : StandingBook) : Prop :=
  (snap.bids.map BookLevel.pair).Perm (shown book.bids) ∧
    (snap.asks.map BookLevel.pair).Perm (shown book.asks)

end Veridex.WsBook
