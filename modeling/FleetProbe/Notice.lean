/-!
What is worth telling an operator: a severity and a form whose blanks are filled in when the line
is written.
-/

namespace FleetProbe

inductive Severity where
  | debug
  | info
  | warning
  | error
  | critical
  deriving DecidableEq, Repr

namespace Severity

def name : Severity → String
  | debug => "DEBUG"
  | info => "INFO"
  | warning => "WARNING"
  | error => "ERROR"
  | critical => "CRITICAL"

/-- Severities as numbers, ten apart. -/
def number : Severity → Nat
  | debug => 10
  | info => 20
  | warning => 30
  | error => 40
  | critical => 50

end Severity

/-- A line of the journal. -/
structure Notice where
  severity : Severity
  form : String
  deriving DecidableEq, Repr

end FleetProbe
