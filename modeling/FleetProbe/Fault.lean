import FleetProbe.Text.Basic
/-!
Conditions that the outside world reports: a connection that cannot be opened or is lost, a query
without an answer.
-/

namespace FleetProbe

/-- What a condition is treated as. -/
inductive FaultKind where
  /-- Something took too long; this is a system condition too. -/
  | deadline
  /-- The system refused or gave up. -/
  | system
  /-- The HTTP exchange broke down. -/
  | exchange
  /-- Nothing that a caller expects. -/
  | other
  deriving DecidableEq, Repr

structure Fault where
  kind : FaultKind
  /-- Name of the condition. -/
  label : String
  detail : Text
  deriving DecidableEq, Repr

namespace Fault

def isDeadline (f : Fault) : Bool := f.kind == .deadline

/-- Lost and refused connections, time-outs included. -/
def isSystem (f : Fault) : Bool := f.kind == .deadline || f.kind == .system

/-- Conditions that a query of the catalog can end with. -/
def isQuery (f : Fault) : Bool := f.kind == .deadline || f.kind == .exchange

/-- The detail, or the name where there is none. -/
def text (f : Fault) : Text := if f.detail.isEmpty then f.label else f.detail

end Fault

end FleetProbe
