import FleetProbe.Calendar
import FleetProbe.Metrics.Basic
import FleetProbe.Number.Shortest
/-!
The metrics as text: for every metric a line of help, a line with its type, and a line per sample
with the labels in alphabetical order.
-/

namespace FleetProbe.Metrics

/-- One number under a name and labels. -/
structure Sample where
  name : String
  labels : List (String × Text)
  value : Float

/-- A metric with its samples. -/
structure Section where
  name : String
  help : String
  type : String
  samples : List Sample

/-- Drops zeros and points at the end of digits. -/
def trimMantissa (cs : List Char) : List Char :=
  (cs.reverse.dropWhile fun c => c == '0' || c == '.').reverse

/-- A number in the plain layout, but positive ones of more than six whole digits with an
exponent. -/
def numberText (x : Float) : String :=
  if x == Number.Binary64.infinity then "+Inf"
  else if x == -Number.Binary64.infinity then "-Inf"
  else if x.isNaN then "NaN"
  else
    let s := Number.text x
    let whole := s.toList.takeWhile (· != '.')
    let rest := (s.toList.dropWhile (· != '.')).drop 1
    if 0 < x && s.toList.contains '.' && 6 < whole.length then
      String.ofList (trimMantissa (whole.take 1 ++ ['.'] ++ whole.drop 1 ++ rest)) ++ "e+"
        ++ Calendar.digits 2 (whole.length - 1)
    else s

def countValue (n : Nat) : Float := (Number.Binary64.ofInt? n).getD Number.Binary64.infinity

def Target.labels (t : Target) : List (String × Text) :=
  [("cluster_name", t.cluster), ("socket", t.socket)]

def requestSample (e : RequestLabels × Nat) : Sample :=
  ⟨"number_of_requests_total",
    e.1.target.labels ++ [("status", e.1.status), ("type", e.1.command)], countValue e.2⟩

/-- The texts of all bounds. -/
def boundTexts (bounds : List Float) : List String := bounds.map numberText ++ ["+Inf"]

/-- Cumulative counts, the count, and the sum. With a negative first bound there is no sum. -/
def latencySamples (bounds : List Float) (e : LatencyLabels × Histogram Float) : List Sample :=
  let target := e.1.target
  let type := ("type", e.1.command)
  let labels := target.labels ++ [type]
  let buckets := List.zipWith (fun bound n => (⟨"response_time_seconds_bucket",
      [("cluster_name", target.cluster), ("le", Text.ofString bound), ("socket", target.socket),
        type],
      countValue n⟩ : Sample))
    (boundTexts bounds) (Histogram.cumulative 0 e.2.counts)
  let count : Sample := ⟨"response_time_seconds_count", labels, countValue e.2.count⟩
  let sum : Sample := ⟨"response_time_seconds_sum", labels, e.2.sum⟩
  buckets ++ [count] ++ (if bounds.all fun b => 0 ≤ b then [sum] else [])

def failureSample (e : Target × Nat) : Sample :=
  ⟨"failure_probe_total", e.1.labels, countValue e.2⟩

def sections (m : Metrics Float) : List Section :=
  [⟨"number_of_requests_total", "Number of total requests", "counter",
      m.requests.map requestSample⟩,
    ⟨"response_time_seconds", "Response Times", "histogram",
      m.latencies.flatMap (latencySamples m.bounds)⟩,
    ⟨"failure_probe_total", "Number of failed connections or probes", "counter",
      m.failures.map failureSample⟩,
    ⟨"failure_services_discovery_total", "Number of failed queries to the service registry",
      "counter", [⟨"failure_services_discovery_total", [], countValue m.discoveryFailures⟩]⟩]

/-- The value of a sample, whatever the order of its labels. -/
def sample? (m : Metrics Float) (name : Text) (labels : List (Text × Text)) : Option Float :=
  let matching (s : Sample) : Bool :=
    Text.ofString s.name == name && s.labels.length == labels.length
      && s.labels.all fun l => labels.contains (Text.ofString l.1, l.2)
  ((sections m |>.flatMap (·.samples)).find? matching).map (·.value)

/-- One character of a label. -/
def escapePoint (p : Nat) : List Nat :=
  if p = 0x5c then [0x5c, 0x5c]
  else if p = 0xa then [0x5c, 0x6e]
  else if p = 0x22 then [0x5c, 0x22]
  else [p]

def labelText (l : String × Text) : Text :=
  l.1 ++ "=\"" ++ ⟨l.2.points.flatMap escapePoint⟩ ++ "\""

def sampleText (s : Sample) : Text :=
  let labels := if s.labels.isEmpty then Text.empty
    else "\x7b" ++ Text.join "," (s.labels.map labelText) ++ "\x7d"
  Text.ofString s.name ++ labels ++ " " ++ Text.ofString (numberText s.value) ++ "\n"

def sectionText (s : Section) : Text :=
  Text.ofString ("# HELP " ++ s.name ++ " " ++ s.help ++ "\n")
    ++ Text.ofString ("# TYPE " ++ s.name ++ " " ++ s.type ++ "\n")
    ++ Text.join Text.empty (s.samples.map sampleText)

/-- The whole text. -/
def exposition (m : Metrics Float) : Text := Text.join Text.empty ((sections m).map sectionText)

end FleetProbe.Metrics
