import FleetProbe.Catalog.Wait
import FleetProbe.Number.Shortest
import FleetProbe.Probe.Task
import FleetProbe.Settings.Reading
import FleetProbe.Text.Case
import FleetProbe.Text.Utf8
/-!
The settings of the program. `Settings.read` makes them of values that come in layers: the first
layer that holds a setting decides, and what no layer holds has a default.
-/

namespace FleetProbe

structure Settings where
  /-- Name of the service in log records. -/
  serviceName : Text
  catalogHost : Text
  catalogPort : Int
  catalogScheme : Text
  catalogToken : Option Text
  /-- How long the catalog may hold a query. -/
  catalogWait : Text
  /-- Services with this tag are probed. -/
  tag : Text
  /-- Least number of seconds between two polls. -/
  pollInterval : Int
  pollCapacity : Option Int
  /-- Seconds between two probes of a node. -/
  probeInterval : Float
  commandTimeout : Float
  connectTimeout : Float
  reconnectBackoff : Float
  probeKey : Text
  probeValue : Text
  probeTtl : Int
  endpointHost : Text
  endpointPort : Int
  logLevel : Text
  logFormat : Text

namespace Settings

/-- Address of the catalog. -/
def baseUrl (s : Settings) : Text :=
  s.catalogScheme ++ "://" ++ s.catalogHost ++ ":" ++ Text.ofString (toString s.catalogPort)

/-- Tokens that a poll takes. -/
def tokenCost (s : Settings) : Int := s.pollInterval

/-- Tokens that the bucket of polls holds; as many as a poll takes unless it is said. -/
def bucketCapacity (s : Settings) : Int := s.pollCapacity.getD s.pollInterval

/-- What the probes need to know; `none` when the value to store cannot be encoded. -/
def probeConfig? (s : Settings) : Option (Probe.Config Float) :=
  s.probeValue.encode?.map fun value =>
    { interval := .within (.real s.probeInterval)
      timeout := .within (.real s.commandTimeout)
      connectTimeout := .within (.real s.connectTimeout)
      backoff := .within (.real s.reconnectBackoff)
      payload := ⟨.text s.probeKey, .bytes value, some s.probeTtl⟩ }

/-- Values of settings by name, in layers. -/
abbrev Layers := List (List (Text × Value))

namespace Layers

def find? (layers : Layers) (name : String) : Option Value :=
  layers.findSome? fun layer => (layer.find? fun e => e.1 == Text.ofString name).map Prod.snd

/-- Reads a setting that has a default. -/
def get {α : Type} (layers : Layers) (name : String) (read : Value → Except Problem α)
    (standard : α) : Except Problem α :=
  match layers.find? name with
  | none => .ok standard
  | some v => read v

/-- All values by name, where the last layer comes first but does not decide. -/
def merged (layers : Layers) : List (Text × Value) :=
  layers.foldl (fun known layer =>
    layer.map (fun (name, v) => (name, (known.lookup name).getD v))
      ++ known.filter fun e => !layer.any (·.1 == e.1)) []

/-- What a setting is given as; what is missing is missing among all values. -/
def given (layers : Layers) (name : String) : Given :=
  .ofValue <| (layers.find? name).getD (.map (layers.merged.map fun (k, v) => (.text k, v)))

end Layers

def lowerText (t : Text) : Text := ⟨t.points.map Text.lowerPoint⟩

/-- One of some words, whatever its case. -/
def choice (words : List Text) (why : Text) (v : Value) : Except Problem Text :=
  (text v).bind fun t =>
    if words.contains (lowerText t) then .ok (lowerText t) else .error (.refused why)

def scheme : Value → Except Problem Text :=
  choice ["http", "https"] "consul_scheme must be http or https"

def format : Value → Except Problem Text :=
  choice ["json", "text"] "log_format must be json or text"

/-- What is said of an integer with too many digits. -/
def tooManyDigits (digits : Nat) : Text :=
  "Exceeds the limit (4300 digits) for integer string conversion: value has " ++ toString digits
    ++ " digits; use sys.set_int_max_str_digits() to increase the limit"

def wait (v : Value) : Except Problem Text :=
  (text v).bind fun t =>
    match Catalog.Wait.seconds t with
    | .error .malformed => .error (.refused (Catalog.Wait.malformedText t))
    | .error .tooManyDigits =>
      let digits := t.points.filter fun p => (Text.digitValue? p).isSome
      .error (.refused (tooManyDigits digits.length))
    | _ => .ok t

/-- Whether a value is a duration beyond all numbers. -/
def isHugeWait (v : Value) : Bool :=
  match text v with
  | .error _ => false
  | .ok t => Catalog.Wait.seconds t matches .error .tooLarge

def nonBlank (v : Value) : Except Problem Text :=
  (text v).bind fun t =>
    if t.points.all Text.isBlank then .error (.refused "services_tag must not be empty") else .ok t

def readTag (layers : Layers) : Except Problem Text :=
  match layers.find? "services_tag" with
  | none => .error .missing
  | some v => nonBlank v

section

variable (layers : Layers)

def readServiceName := layers.get "service_name" text "mempoke"
def readCatalogHost := layers.get "consul_hostname" text "localhost"
def readCatalogPort := layers.get "consul_port" (between 1 65535) 8500
def readCatalogScheme := layers.get "consul_scheme" scheme "http"
def readCatalogToken := layers.get "consul_token" (optional text) none
def readCatalogWait := layers.get "consul_wait" wait Catalog.Wait.standard
def readPollInterval := layers.get "poll_interval" positive 60
def readPollCapacity := layers.get "poll_bucket_capacity" (optional positive) none
def readProbeInterval := layers.get "probe_interval" positiveTime 1
def readCommandTimeout := layers.get "command_timeout" positiveTime 1
def readConnectTimeout := layers.get "connect_timeout" positiveTime 1
def readReconnectBackoff := layers.get "reconnect_backoff" time 0.5
def readProbeKey := layers.get "probe_key" (boundedText 1 250) "mempoke"
def readProbeValue := layers.get "probe_value" text "mempoke"
def readProbeTtl := layers.get "probe_ttl" (atLeast 0) 60
def readEndpointHost := layers.get "http_host" text "0.0.0.0"
def readEndpointPort := layers.get "http_port" (between 1 65535) 8080
def readLogLevel := layers.get "log_level" text "INFO"
def readLogFormat := layers.get "log_format" format "json"

/-- The settings, if every one of them is in order. -/
def ofLayers? : Except Problem Settings := do
  let serviceName ← readServiceName layers
  let catalogHost ← readCatalogHost layers
  let catalogPort ← readCatalogPort layers
  let catalogScheme ← readCatalogScheme layers
  let catalogToken ← readCatalogToken layers
  let catalogWait ← readCatalogWait layers
  let tag ← readTag layers
  let pollInterval ← readPollInterval layers
  let pollCapacity ← readPollCapacity layers
  let probeInterval ← readProbeInterval layers
  let commandTimeout ← readCommandTimeout layers
  let connectTimeout ← readConnectTimeout layers
  let reconnectBackoff ← readReconnectBackoff layers
  let probeKey ← readProbeKey layers
  let probeValue ← readProbeValue layers
  let probeTtl ← readProbeTtl layers
  let endpointHost ← readEndpointHost layers
  let endpointPort ← readEndpointPort layers
  let logLevel ← readLogLevel layers
  let logFormat ← readLogFormat layers
  .ok
    { serviceName, catalogHost, catalogPort, catalogScheme, catalogToken, catalogWait, tag
      pollInterval, pollCapacity, probeInterval, commandTimeout, connectTimeout, reconnectBackoff
      probeKey, probeValue, probeTtl, endpointHost, endpointPort, logLevel, logFormat }

/-- The problem of a setting, if it has one. -/
def issue {α : Type} (setting : String) : Except Problem α → List Issue
  | .ok _ => []
  | .error problem => [⟨setting, problem, layers.given setting⟩]

/-- Everything that is wrong, in the order of the settings. -/
def issues : List Issue :=
  issue layers "service_name" (readServiceName layers) ++
  issue layers "consul_hostname" (readCatalogHost layers) ++
  issue layers "consul_port" (readCatalogPort layers) ++
  issue layers "consul_scheme" (readCatalogScheme layers) ++
  issue layers "consul_token" (readCatalogToken layers) ++
  issue layers "consul_wait" (readCatalogWait layers) ++
  issue layers "services_tag" (readTag layers) ++
  issue layers "poll_interval" (readPollInterval layers) ++
  issue layers "poll_bucket_capacity" (readPollCapacity layers) ++
  issue layers "probe_interval" (readProbeInterval layers) ++
  issue layers "command_timeout" (readCommandTimeout layers) ++
  issue layers "connect_timeout" (readConnectTimeout layers) ++
  issue layers "reconnect_backoff" (readReconnectBackoff layers) ++
  issue layers "probe_key" (readProbeKey layers) ++
  issue layers "probe_value" (readProbeValue layers) ++
  issue layers "probe_ttl" (readProbeTtl layers) ++
  issue layers "http_host" (readEndpointHost layers) ++
  issue layers "http_port" (readEndpointPort layers) ++
  issue layers "log_level" (readLogLevel layers) ++
  issue layers "log_format" (readLogFormat layers)

end

/-- Why values make no settings. -/
inductive Refusal where
  /-- The time that the catalog may hold a query is beyond all numbers. -/
  | hugeWait
  | issues (is : List Issue)
  deriving DecidableEq, Repr

/-- The settings that layers of values make. -/
def read (layers : Layers) : Except Refusal Settings :=
  if (layers.find? "consul_wait").any isHugeWait then .error .hugeWait
  else
    match ofLayers? layers with
    | .ok s => .ok s
    | .error _ => .error (.issues (issues layers))

/-- Every setting with its value, under its name. -/
def toFields (s : Settings) : List (String × Value) :=
  [("service_name", .text s.serviceName), ("consul_hostname", .text s.catalogHost),
    ("consul_port", .int s.catalogPort), ("consul_scheme", .text s.catalogScheme),
    ("consul_token", (s.catalogToken.map .text).getD .null), ("consul_wait", .text s.catalogWait),
    ("services_tag", .text s.tag), ("poll_interval", .int s.pollInterval),
    ("poll_bucket_capacity", (s.pollCapacity.map .int).getD .null),
    ("probe_interval", .real s.probeInterval), ("command_timeout", .real s.commandTimeout),
    ("connect_timeout", .real s.connectTimeout),
    ("reconnect_backoff", .real s.reconnectBackoff), ("probe_key", .text s.probeKey),
    ("probe_value", .text s.probeValue), ("probe_ttl", .int s.probeTtl),
    ("http_host", .text s.endpointHost), ("http_port", .int s.endpointPort),
    ("log_level", .text s.logLevel), ("log_format", .text s.logFormat)]

/-- Names of the settings. -/
def names : List String :=
  ["service_name", "consul_hostname", "consul_port", "consul_scheme", "consul_token",
    "consul_wait", "services_tag", "poll_interval", "poll_bucket_capacity", "probe_interval",
    "command_timeout", "connect_timeout", "reconnect_backoff", "probe_key", "probe_value",
    "probe_ttl", "http_host", "http_port", "log_level", "log_format"]

theorem map_fst_toFields (s : Settings) : s.toFields.map Prod.fst = names := rfl

/-- The settings an operator is shown at the start. -/
def summary (s : Settings) : List (Text × Text) :=
  let seconds (x : Float) : Text := Number.text x ++ "s"
  [("Consul", s.baseUrl), ("Services tag", s.tag),
    ("Poll interval", toString s.pollInterval ++ "s"),
    ("Probe interval", seconds s.probeInterval), ("Command timeout", seconds s.commandTimeout),
    ("Metrics endpoint", s.endpointHost ++ ":" ++ Text.ofString (toString s.endpointPort))]

end Settings

end FleetProbe
