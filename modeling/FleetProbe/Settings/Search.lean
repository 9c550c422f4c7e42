import FleetProbe.Settings.EnvFile
import FleetProbe.Settings.Folder
import FleetProbe.Settings.Reading
import FleetProbe.Text.Encoding
/-!
Where settings are looked for besides the given values: in variables of the environment, in files of
variables, and in folders that hold one setting a file. Given values of special names say how.
-/

namespace FleetProbe.Settings

/-- What the program is started with. -/
structure Surroundings where
  environment : List (Text × Text) := []
  folder : Folder := ⟨[]⟩

/-- Why a search comes to no end. -/
inductive SearchFault where
  /-- A place is given by something that is no text. -/
  | badPlace
  /-- The system refuses to look at a path. -/
  | refusedPath
  | badEncoding
  | unknownEncoding
  | undecodable
  /-- The front of the names has no length. -/
  | badFront
  /-- The front of the names, or what stands in a folder of settings, cannot be used. -/
  | badSource
  deriving DecidableEq, Repr

/-- How settings are looked for. -/
structure Search where
  caseSensitive : Bool
  /-- Front of the names of variables. -/
  front : Value
  /-- The files of variables, of which later ones override earlier ones. -/
  files : Value
  encoding : Value
  /-- Variables without any text do not count. -/
  ignoreEmpty : Bool
  /-- The text that stands for an absent value. -/
  noneText : Value
  folders : Value

namespace Search

/-- What the given values say of the search. An absent value leaves the standard, but there may be
no file of variables at all. -/
def ofGiven (given : List (Text × Value)) : Search :=
  let find? (name : String) := (given.find? fun e => e.1 == Text.ofString name).map Prod.snd
  let or (name : String) (standard : Value) : Value :=
    match find? name with
    | none | some .null => standard
    | some v => v
  { caseSensitive := (or "_case_sensitive" .null).isTruthy
    front := or "_env_prefix" "MEMPOKE_"
    files := (find? "_env_file").getD ".env"
    encoding := or "_env_file_encoding" "utf-8"
    ignoreEmpty := (or "_env_ignore_empty" .null).isTruthy
    noneText := or "_env_parse_none_str" .null
    folders := or "_secrets_dir" .null }

def smallText (t : Text) : Text := ⟨Text.inSmallLetters false t.points⟩

/-- The form in which names are compared. -/
def nameForm (s : Search) (t : Text) : Text := if s.caseSensitive then t else smallText t

/-- Variables under the form of their names; those that do not count are left out. -/
def variablesOf (s : Search) (bound : List (Text × Option Text)) : List (Text × Option Text) :=
  (bound.filter fun e => !(s.ignoreEmpty && e.2 == some Text.empty)).map fun (n, v) => (s.nameForm n, v)

/-- Settings that variables hold, of some names. Of names of one form the last one counts, even when
it is bound to nothing. -/
def ofVariables (s : Search) (front : Text) (names : List Text)
    (bound : List (Text × Option Text)) : List (Text × Value) :=
  names.filterMap fun name =>
    match bound.reverse.lookup (s.nameForm (front ++ name)) with
    | some (some t) => some (name, if s.noneText.isText t then .null else .text t)
    | _ => none

/-- The places that a value gives, one after another. -/
def places : Value → Option (List Value)
  | .null => some []
  | .text t => some [.text t]
  | .list vs => some vs
  | .map es => some (es.map Prod.fst)
  | .bytes bs => some (bs.map fun b => .int b.toNat)
  | _ => none

/-- What a place holds. -/
inductive Place where
  | nothing
  | file (bytes : List UInt8)
  | folder (parts : List Text)

/-- Looks at a place; a path that cannot be written leads nowhere. -/
def look (folder : Folder) (path : Text) : Except SearchFault Place :=
  if path.points.contains 0 || (Path.bytes? path.points).isNone then .ok .nothing
  else
    match folder.find (.ofText path) with
    | .error .nameTooLong => .error .refusedPath
    | .error _ => .ok .nothing
    | .ok none => .ok .nothing
    | .ok (some parts) =>
      .ok (((folder.file? parts).map .file).getD (.folder parts))

/-- The text of a file of variables. -/
def decode (s : Search) (bytes : List UInt8) : Except SearchFault (List Nat) :=
  let read (e : Text.Encoding) : Except SearchFault (List Nat) :=
    ((e.decode? bytes).map .ok).getD (.error .undecodable)
  match s.encoding with
  | .text t =>
    if t.isEmpty then read .utf8
    else ((Text.Encoding.ofName? t).map read).getD (.error .unknownEncoding)
  | v => if v.isTruthy then .error .badEncoding else read .utf8

/-- Variables of files, one file after another. -/
def ofFiles (s : Search) (start : Surroundings) : List Value →
    Except SearchFault (List (Text × Option Text))
  | [] => .ok []
  | .text path :: rest => do
    let found ← match ← look start.folder path with
      | .file bytes => (s.decode bytes).map fun ps => EnvFile.read start.environment ps
      | _ => .ok []
    (ofFiles s start rest).map (s.variablesOf found ++ ·)
  | _ :: _ => .error .badPlace

/-- All variables of files. -/
def fileVariables (s : Search) (start : Surroundings) :
    Except SearchFault (List (Text × Option Text)) :=
  match places s.files with
  | some vs => s.ofFiles start vs
  | none => .error .badPlace

/-- The folders that settings are looked for in, of those that are there. -/
def foldersAt (start : Surroundings) : List Value → Except SearchFault (List (List Text))
  | [] => .ok []
  | .text path :: rest => do
    match ← look start.folder path with
    | .nothing => foldersAt start rest
    | .folder parts => (foldersAt start rest).map (parts :: ·)
    | .file _ => (foldersAt start rest).bind fun _ => .error .badSource
  | _ :: _ => .error .badPlace

/-- What a folder holds under the name of a setting. -/
def inFolder (s : Search) (start : Surroundings) (name : Text) (parts : List Text) :
    Option (List UInt8) :=
  start.folder.files.findSome? fun (path, bytes) =>
    match path.parts.drop parts.length with
    | [file] =>
      if path.parts.take parts.length == parts && s.nameForm file == s.nameForm name then some bytes
      else none
    | _ => none

/-- Settings that folders hold, of some names; later folders come first. -/
def ofFolders (s : Search) (start : Surroundings) (front : Text) (names : List Text) :
    Except SearchFault (List (Text × Value)) := do
  let some vs := places s.folders | .error .badPlace
  let folders ← foldersAt start vs
  let found := names.filterMap fun name =>
    (folders.reverse.findSome? (s.inFolder start (front ++ name))).map fun bs =>
      (name, bs)
  found.mapM fun (name, bs) =>
    match Text.decodePoints? bs with
    | none => .error .badSource
    | some ps => .ok (name, .text ⟨Text.trimBy Text.isBlank (Text.unifyLines ps)⟩)

/-- Whether a value has a length, as a text has. -/
def hasLength : Value → Bool
  | .text _ | .bytes _ | .list _ | .map _ => true
  | _ => false

/-- Settings by name that a search finds, those that count first. -/
def run (s : Search) (start : Surroundings) (names : List Text) :
    Except SearchFault (List (List (Text × Value))) := do
  if !hasLength s.front then .error .badFront
  let bound ← s.fileVariables start
  let .text front := s.front | .error .badSource
  let environment := s.variablesOf (start.environment.map fun (n, v) => (n, some v))
  let kept ← s.ofFolders start front names
  .ok [s.ofVariables front names environment, s.ofVariables front names bound, kept]

end Search

end FleetProbe.Settings
