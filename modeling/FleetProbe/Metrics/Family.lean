/-!
The series of one metric: a value under every combination of labels that was ever touched, in the
order in which they were first touched.
-/

namespace FleetProbe.Metrics

abbrev Family (L V : Type) := List (L × V)

namespace Family

variable {L V : Type} [DecidableEq L]

def find? (f : Family L V) (labels : L) : Option V :=
  (List.find? (fun e => e.1 = labels) f).map Prod.snd

/-- Changes the series of some labels; one that is missing starts from `fresh`. -/
def update (labels : L) (fresh : V) (change : V → V) : Family L V → Family L V
  | [] => [(labels, change fresh)]
  | (l, v) :: rest =>
    if l = labels then (l, change v) :: rest else (l, v) :: update labels fresh change rest

def erase (f : Family L V) (labels : L) : Family L V := f.filter fun e => !decide (e.1 = labels)

end Family

end FleetProbe.Metrics
