import FleetProbe.Metrics.Exposition
import FleetProbe.Value
/-!
All series as one document: counts and sums under the labels of their series, joined by bars. Of a
histogram only the bounds are kept at which its cumulative count changes.
-/

namespace FleetProbe.Metrics

def bar (ts : List Text) : Value := .text (Text.join "|" ts)

def countText (n : Nat) : Value := Number.text (countValue n)

/-- Rows whose number differs from the one before. -/
def changes (before : Nat) : List (String × Nat) → List (String × Nat)
  | [] => []
  | (le, n) :: rows => if n = before then changes n rows else (le, n) :: changes n rows

def histogramSummary (bounds : List Float) (h : Histogram Float) : Value :=
  let rows := changes 0 ((boundTexts bounds).zip (Histogram.cumulative 0 h.counts))
  .ofFields
    ([("count", countText h.count),
      ("buckets", .list (rows.map fun (le, n) => .list [(le : Value), countText n]))]
      ++ if bounds.all (0 ≤ ·) then [("sum", (Number.text h.sum : Value))] else [])

def summary (m : Metrics Float) : Value :=
  .ofFields
    [("requests", .map (m.requests.map fun (l, n) =>
        (bar [l.target.cluster, l.target.socket, l.status, l.command], countText n))),
      ("latency", .map (m.latencies.map fun (l, h) =>
        (bar [l.target.cluster, l.target.socket, l.command], histogramSummary m.bounds h))),
      ("failures", .map (m.failures.map fun (t, n) => (bar [t.cluster, t.socket], countText n))),
      ("discovery", countText m.discoveryFailures)]

end FleetProbe.Metrics
