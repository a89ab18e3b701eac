import Veridex.Api.StartRuns

/-!
# An armed start (`competition/service.py`)

One start in live mode with an adapter that is ready: its agent bets on its first tick, and its lane asks
for a price and submits an order.
-/

namespace Veridex.Api

open Veridex.Competition Veridex.Lib Veridex.Policy Veridex.Py Veridex.Runtime Veridex.Scoring
open Veridex.Execution (Adapter Answer Await BreakerCell Lane Shell fills overOrder
  overProposal overResult overTick punter flagOver)
open Veridex.Store Veridex.Strategies Dialogue

/-- The adapter. -/
def armedAdapter : Adapter where
  venue := some "fake"
  className := "FakeAdapter"
  providesRealVenueQuote := true

end Veridex.Api
