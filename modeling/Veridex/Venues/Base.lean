import Veridex.Execution.Models

/-!
# Venue values (`venues/base.py`)

What an adapter is asked and answers. Its prices are decimal odds. A venue's status texts are mapped
to the receipt's status; one that is not known is unresolved.
-/

namespace Veridex.Venues

open Veridex.Py Veridex.Execution

/-- `Quote`. Its native price and its levels are for audit. -/
structure Quote where
  marketRef : String
  price : PyFloat
  nativePrice : Option PyFloat := none
  size : PyFloat
  forSize : Option PyFloat := none
  ts : ℤ
  deriving DecidableEq, Repr

/-- A taker's time in force. -/
inductive TakerTif where
  | fak
  | fok
  deriving DecidableEq, Repr

/-- `Order`. -/
structure Order where
  marketRef : String
  side : String
  size : PyFloat
  price : PyFloat
  venue : String
  tif : TakerTif := .fak
  clientOrderId : String
  deriving DecidableEq, Repr

/-- `SubmitAck`. -/
structure SubmitAck where
  venueOrderId : String
  accepted : Bool
  deriving DecidableEq, Repr

/-- `OrderStatus`. -/
structure OrderStatus where
  venueOrderId : String
  status : String
  filledSize : PyFloat
  price : PyFloat
  nativePrice : Option PyFloat := none
  deriving DecidableEq, Repr

/-- `map_venue_status`. -/
def mapVenueStatus (venueStatus : String) : ExecutionStatus :=
  (([("filled", .filled), ("partial", .partialFill), ("partial_fill", .partialFill), ("rejected", .rejected),
    ("cancelled", .cancelled), ("canceled", .cancelled), ("expired", .expired)] :
      List (String × ExecutionStatus)).lookup (lower venueStatus)).getD .unresolved

/-- `TERMINAL_STATUSES`. -/
def terminalStatuses : List String :=
  ["filled", "partial", "rejected", "cancelled", "canceled", "expired"]

/-- `build_receipt`. -/
def buildReceipt (executionId : String) (order : Order) (status : OrderStatus) (mode : String) :
    ExecutionReceipt where
  executionId := executionId
  venue := order.venue
  marketRef := order.marketRef
  side := order.side
  requestedSize := order.size
  filledSize := status.filledSize
  price := status.price
  status := mapVenueStatus status.status
  venueOrderId := some status.venueOrderId
  mode := mode

end Veridex.Venues
