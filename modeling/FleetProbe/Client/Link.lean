import FleetProbe.Fault
import FleetProbe.Wire.Bytes
/-!
The near end of a connection: bytes that came in and were not read yet, and how the connection
stands.
-/

namespace FleetProbe

structure Link where
  inbox : Bytes := []
  /-- The peer sends nothing more. -/
  ended : Bool := false
  /-- Every read fails with this, bytes or no bytes. -/
  readFault : Option Fault := none
  /-- Every write fails with this. -/
  writeFault : Option Fault := none
  deriving DecidableEq, Repr

namespace Link

def receive (l : Link) (bs : Bytes) : Link := { l with inbox := l.inbox ++ bs }

def finish (l : Link) : Link := { l with ended := true }

/-- The reading half fails from now on. -/
def fail (l : Link) (f : Fault) : Link := { l with readFault := some f }

/-- The connection is lost. -/
def lose (l : Link) (f : Fault) : Link := { l with readFault := some f, writeFault := some f }

/-- A write on a connection that the near end has closed. -/
def closedFault : Fault := ⟨.system, "closed", "Connection lost"⟩

/-- The near end closes; what was wrong before stays wrong. -/
def close (l : Link) : Link := { l with writeFault := some (l.writeFault.getD closedFault) }

end Link

end FleetProbe
