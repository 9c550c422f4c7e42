import FleetProbe.Text.Quoted
import FleetProbe.Text.Utf8
/-!
The folder that the program runs in: its files by their paths, and how a path is opened. Outside the
folder there are the folders of every system, and the null device is all that can be read there.
-/

namespace FleetProbe

/-- Why a path cannot be opened as a file. -/
inductive OpenFault where
  | missing
  | notFolder
  | isFolder
  | nameTooLong
  deriving DecidableEq, Repr

namespace OpenFault

def number : OpenFault → Nat
  | missing => 2
  | notFolder => 20
  | isFolder => 21
  | nameTooLong => 36

def reason : OpenFault → String
  | missing => "No such file or directory"
  | notFolder => "Not a directory"
  | isFolder => "Is a directory"
  | nameTooLong => "File name too long"

/-- What is said of a path. -/
def message (f : OpenFault) (path : Text) : Text :=
  "[Errno " ++ toString f.number ++ "] " ++ f.reason ++ ": " ++ path.quoted

end OpenFault

/-- A path in its parts. -/
structure Path where
  /-- Number of slashes in front that count. -/
  slashes : Nat
  parts : List Text
  deriving DecidableEq, Repr

namespace Path

/-- Parts between slashes. -/
def split : List Nat → List (List Nat)
  | [] => [[]]
  | p :: ps =>
    if p = 0x2f then [] :: split ps
    else
      match split ps with
      | part :: parts => (p :: part) :: parts
      | [] => [[p]]

/-- Empty parts and single points do not count; two slashes in front, and no more, do. -/
def ofText (t : Text) : Path :=
  let front := (t.points.takeWhile (· == 0x2f)).length
  { slashes := if front = 2 then 2 else min front 1
    parts := ((split t.points).map Text.mk).filter fun p => !p.isEmpty && p != "." }

def text (p : Path) : Text :=
  if p.slashes = 0 && p.parts.isEmpty then "."
  else ⟨List.replicate p.slashes 0x2f⟩ ++ Text.join "/" p.parts

end Path

/-- A path as the system is given it; single bytes that are no text can be written as surrogates. -/
def Path.bytes? : List Nat → Option (List UInt8)
  | [] => some []
  | p :: ps =>
    if 0xdc80 ≤ p ∧ p ≤ 0xdcff then (bytes? ps).map ((p - 0xdc00).toUInt8 :: ·)
    else if Text.isSurrogate p then none
    else (bytes? ps).map (Text.encodePoint p ++ ·)

structure Folder where
  files : List (Path × List UInt8)

namespace Folder

/-- The contents of a file. -/
def file? (f : Folder) (parts : List Text) : Option (List UInt8) :=
  (f.files.find? fun e => e.1.parts == parts).map Prod.snd

/-- Whether something is in a folder. -/
def isFolder (f : Folder) (parts : List Text) : Bool :=
  parts.isEmpty
    || f.files.any fun e => e.1.parts.take parts.length == parts && e.1.parts.length != parts.length

/-- Goes down a path; `none` stands for a place outside. -/
def walk (f : Folder) : Option (List Text) → List Text → Except OpenFault (Option (List Text))
  | here, [] => .ok here
  | here, part :: parts =>
    if part = ".." then
      match here with
      | none | some [] => walk f none parts
      | some here =>
        if f.isFolder here then walk f (some here.dropLast) parts else .error .notFolder
    else if (Path.bytes? part.points).any (255 < ·.length) then .error .nameTooLong
    else
      match here with
      | none => .error .missing
      | some here =>
        if (f.file? here).isSome then .error .notFolder
        else if (f.file? (here ++ [part])).isSome || f.isFolder (here ++ [part]) then
          walk f (some (here ++ [part])) parts
        else .error .missing

/-- Folders at the root of every system. -/
def rootFolders : List Text :=
  ["bin", "dev", "etc", "home", "lib", "mnt", "opt", "proc", "root", "sbin", "sys", "tmp", "usr",
    "var"]

/-- Most bytes of a path. -/
def longestPath : Nat := 4095

/-- Where a path leads; `none` stands for a place outside. -/
def find (f : Folder) (p : Path) : Except OpenFault (Option (List Text)) :=
  if (Path.bytes? p.text.points).any (longestPath < ·.length) then .error .nameTooLong
  else if p.slashes = 0 then f.walk (some []) p.parts
  else
    match p.parts with
    | [name] => if rootFolders.contains name then .ok none else f.walk none p.parts
    | parts => f.walk none parts

def nullDevice : Path := ⟨1, ["dev", "null"]⟩

/-- The contents at a path. The null device is always empty. -/
def read (f : Folder) (p : Path) : Except OpenFault (List UInt8) :=
  if p = nullDevice then .ok []
  else
    match f.find p with
    | .error e => .error e
    | .ok place =>
      match place.bind f.file? with
      | some bytes => .ok bytes
      | none => .error .isFolder

end Folder

end FleetProbe
