import FleetProbe.Failure
import FleetProbe.Notice
import FleetProbe.Probe.Task
/-!
The lines that probes leave in the journal.
-/

namespace FleetProbe.Probe

/-- What is put on record of an effect. A time-out is written out in full. -/
def notice? : Effect Float → Option Notice
  | .started => some ⟨.info, "Start probing %s"⟩
  | .stopped => some ⟨.info, "Stop probing %s"⟩
  | .connectFailed => some ⟨.warning, "Failed to connect to %s: %s"⟩
  | .probeFailed => some ⟨.warning, "Probe of %s failed: %s"⟩
  | .timedOut command limit =>
    some ⟨.warning, (Failure.timedOut command limit).message.display⟩
  | _ => none

end FleetProbe.Probe
