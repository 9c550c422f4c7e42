import FleetProbe.Settings.Basic
import FleetProbe.Settings.Search
import FleetProbe.Yaml.Document
/-!
Where the values of settings come from. Given values come first, and they override those of a
configuration file; then come variables of the environment, then those of a file of variables.
-/

namespace FleetProbe.Settings

/-- Why settings cannot be loaded. -/
inductive LoadFault where
  /-- A surrogate stands in the path. -/
  | unwritablePath
  /-- A zero character stands in the path. -/
  | zeroInPath
  | unopened (path : Text) (why : OpenFault)
  /-- A file is not text. -/
  | undecodable
  | unreadable (path : Text) (why : Yaml.Fault)
  | notMapping (path : Text)
  /-- A value has a name that is no text. -/
  | badName
  | lost (why : SearchFault)
  | refused (why : Refusal)
  deriving Repr

namespace LoadFault

/-- What is said when a configuration file is at fault. -/
def fileMessage? : LoadFault → Option Text
  | unopened path why =>
    some ("Cannot read configuration file " ++ path ++ ": " ++ why.message path)
  | unreadable path .malformed => some ("Cannot read configuration file " ++ path ++ ": ")
  | notMapping path => some ("Configuration file " ++ path ++ " must contain a mapping")
  | _ => none

end LoadFault

/-- Entries of the configuration file at a path. -/
def configuration (folder : Folder) (path : Text) : Except LoadFault (List (Value × Value)) := do
  let place := Path.ofText path
  if (Path.bytes? path.points).isNone then .error .unwritablePath
  else if path.points.contains 0 then .error .zeroInPath
  else
    match folder.read place with
    | .error why => .error (.unopened place.text why)
    | .ok bytes =>
      match Text.decodePoints? bytes with
      | none => .error .undecodable
      | some ps =>
        match Yaml.read (Text.unifyLines ps) with
        | .error why => .error (.unreadable place.text why)
        | .ok v =>
          match v with
          | .map entries => .ok entries
          | v => if v.isTruthy then .error (.notMapping place.text) else .ok []

/-- Entries under names; all names must be texts. -/
def named : List (Value × Value) → Except LoadFault (List (Text × Value))
  | [] => .ok []
  | (.text name, v) :: es => (named es).map ((name, v) :: ·)
  | _ :: _ => .error .badName

/-- Values that are given outright; absent ones do not count. -/
def override (entries : List (Value × Value)) (overrides : List (Text × Value)) :
    List (Value × Value) :=
  overrides.foldl (fun es (name, v) => match v with
    | .null => es
    | v => putField name v es) entries

/-- Loads the settings. -/
def load (s : Surroundings) (config : Option Text) (overrides : List (Text × Value)) :
    Except LoadFault Settings := do
  let entries ← match config with
    | none => .ok []
    | some path => configuration s.folder path
  let given ← named (override entries overrides)
  match (Search.ofGiven given).run s (names.map Text.ofString) with
  | .error why => .error (.lost why)
  | .ok found =>
    match read ((given.map fun (name, v) => (Search.smallText name, v)) :: found) with
    | .ok settings => .ok settings
    | .error why => .error (.refused why)

end FleetProbe.Settings
