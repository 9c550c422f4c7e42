import FleetProbe.Failure
import FleetProbe.Service
import FleetProbe.Settings.Basic
import FleetProbe.Value.Display
/-!
The service that settings describe.
-/

namespace FleetProbe.Service

/-- Tokens that are added to the bucket of polls every second. -/
def quantum : Int := 1

/-- Why settings describe no service. -/
inductive StartFault where
  /-- A poll takes more tokens than the bucket holds. -/
  | pacing (cost capacity : Int)
  /-- The same, but one of the numbers has too many digits to be told. -/
  | untold
  /-- The time that the catalog may hold a query is no duration. -/
  | wait (f : Catalog.Wait.Fault)
  /-- The bucket is too large to be reckoned with. -/
  | hugeBucket
  /-- The value that probes store cannot be encoded. -/
  | unencodable
  deriving DecidableEq, Repr

namespace StartFault

/-- The failure that a fault is reported as, if it has a name of its own. -/
def failure? : StartFault → Option Failure
  | pacing cost capacity => some (.overCapacity (.whole cost) (.whole capacity))
  | _ => none

end StartFault

/-- What is said of a poll that takes more than the bucket holds. -/
def overdrawn (cost capacity : Int) : StartFault :=
  if (Value.digits? cost).isSome && (Value.digits? capacity).isSome then .pacing cost capacity
  else .untold

/-- The watch that settings describe, with a full bucket. -/
def watchOf {α : Type} [Quantity α] (s : Settings) (now : α) : Except StartFault (Watch α) :=
  match Bucket.create (.whole s.bucketCapacity) (.whole quantum) (.real now) with
  | .error _ => .error .hugeBucket
  | .ok bucket => .ok { bucket, cost := s.tokenCost }

/-- Prepares a service. -/
def ofSettings (s : Settings) (now : Float) : Except StartFault (Service Float) :=
  if s.bucketCapacity < s.tokenCost then .error (overdrawn s.tokenCost s.bucketCapacity)
  else
    match Catalog.Wait.seconds s.catalogWait with
    | .error f => .error (.wait f)
    | .ok _ =>
      match watchOf s now with
      | .error f => .error f
      | .ok watch =>
        match s.probeConfig? with
        | none => .error .unencodable
        | some config =>
          .ok
            { source := Catalog.Source.ofAddress s.baseUrl s.catalogWait
              tag := s.tag, config, watch
              crew := { metrics := { bounds := Metrics.standardBounds } } }

end FleetProbe.Service
