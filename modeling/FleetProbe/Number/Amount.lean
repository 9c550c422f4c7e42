import FleetProbe.Number.Quantity
import FleetProbe.Number.Shortest
/-!
The text of an amount.
-/

namespace FleetProbe.Amount

/-- An integer in decimal, a real number in the plain layout. -/
def text : Amount Float → String
  | whole n => toString n
  | real x => Number.text x

end FleetProbe.Amount
