import FleetProbe.Text.Basic
/-!
The switches of the command line.
-/

namespace FleetProbe.CommandLine

/-- What a switch does, and what its value may be. -/
inductive Kind where
  | text
  | integer
  | number
  /-- One of some words; the case may not matter. -/
  | choice (words : List String) (anyCase : Bool)
  /-- The configuration file. -/
  | file
  | version
  | help
  deriving DecidableEq, Repr

structure Switch where
  /-- The name behind two dashes. -/
  name : String
  kind : Kind
  about : String
  /-- A single letter for it. -/
  letter : Option Char := none
  deriving DecidableEq, Repr

namespace Switch

def long (s : Switch) : String := "--" ++ s.name

/-- The setting that the switch is for. -/
def setting (s : Switch) : String := s.name.map fun c => if c = '-' then '_' else c

def takesValue (s : Switch) : Bool := s.kind != .version && s.kind != .help

/-- Switches that end the program at once. -/
def isEager (s : Switch) : Bool := !s.takesValue

end Switch

def levels : List String := ["DEBUG", "INFO", "WARNING", "ERROR", "CRITICAL", "OFF"]

def switches : List Switch :=
  [⟨"consul-hostname", .text, "Consul hostname (default: localhost)", none⟩,
    ⟨"consul-port", .integer, "Consul port (default: 8500)", none⟩,
    ⟨"consul-scheme", .choice ["http", "https"] false, "Consul scheme (default: http)", none⟩,
    ⟨"services-tag", .text, "Tag to select services to probe (required)", none⟩,
    ⟨"http-port", .integer, "Http port for metrics endpoint (default: 8080)", none⟩,
    ⟨"poll-interval", .integer, "Min seconds between catalog polls (default: 60)", none⟩,
    ⟨"probe-interval", .number, "Seconds between probes (default: 1)", none⟩,
    ⟨"command-timeout", .number, "Deadline of a probe command (default: 1)", none⟩,
    ⟨"config", .file, "YAML file with settings", none⟩,
    ⟨"log-level", .choice levels true, "Logging level (default: INFO)", none⟩,
    ⟨"log-format", .choice ["json", "text"] false, "Log format (default: json)", none⟩,
    ⟨"version", .version, "Show the version and exit.", none⟩,
    ⟨"help", .help, "Show this message and exit.", some 'h'⟩]

end FleetProbe.CommandLine
