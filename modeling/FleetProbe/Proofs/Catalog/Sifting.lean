import FleetProbe.Catalog.Services
/-!
What becomes of the entries of a catalog answer. An entry is usable or has a fault that keeps it
from being a node; whatever it holds it is one of the two, by itself, and so every entry leaves one
node or one warning behind, in the order of the answer.
-/

namespace FleetProbe

namespace Value

end Value

namespace Catalog.Nodes

open Value

section Entry

variable {fields : List (Value × Value)}

end Entry

theorem isEmpty_iff (t : Text) : t.isEmpty = true ↔ t = Text.empty := by
  cases t
  simp [Text.isEmpty, Text.empty]

section Reading

variable (service : Text) {fields : List (Value × Value)} {ip : Text}

end Reading

/-- A number is no address, so the address of the machine does not count; an empty text is none at
all. -/
example : extract "cache" (.list
      [.map [("ServiceAddress", .int 7), ("Address", "10.0.0.1"), ("ServicePort", .int 11211)],
        .map [("ServiceAddress", ""), ("Address", "10.0.0.2"), ("ServicePort", .int 11211)],
        .map [("Address", "10.0.0.3"), ("ServicePort", .bool true)]]) =
    ([⟨"cache", "10.0.0.2", 11211⟩], [Refusal.noAddress.notice, Refusal.noPort.notice]) := by
  rfl

end Catalog.Nodes

end FleetProbe
