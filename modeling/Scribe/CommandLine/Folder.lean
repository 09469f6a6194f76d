import Scribe.CommandLine.Path

/-!
# Folders

The files and directories below the directory that a command runs in. A path is followed name by
name; `..` may lead out of the folder, where every directory on the way up exists and nothing else
is known.

Writing creates or replaces a file. It needs the directory around the file, and it never touches
another file.
-/

namespace Scribe.CommandLine

/-- What a path leads to. -/
inductive Target where
  | directory
  | file (bytes : List UInt8)
  /-- Nothing, in a directory that exists. -/
  | vacant
  /-- Nothing, and no directory around it either. -/
  | missing
  /-- Nothing, since a file stands where a directory is needed. -/
  | blocked
  deriving DecidableEq, Repr

/-- Why a file cannot be written. -/
inductive WriteError where
  | missing (path : Path)
  | blocked (path : Path)
  | directory (path : Path)
  deriving DecidableEq, Repr

/-- The reason in words. -/
def WriteError.message : WriteError → String
  | .missing path => "[Errno 2] No such file or directory: " ++ Text.quoted path.text
  | .blocked path => "[Errno 20] Not a directory: " ++ Text.quoted path.text
  | .directory path => "[Errno 21] Is a directory: " ++ Text.quoted path.text

/-- What keeps a file from being written where `path` leads to the target. -/
def Target.obstacle? (path : Path) : Target → Option WriteError
  | .directory => some (.directory path)
  | .file _ => none
  | .vacant => none
  | .missing => some (.missing path)
  | .blocked => some (.blocked path)

/-- A place inside a folder: the names that lead to it from the top. -/
abbrev Place := List String

/-- Files and directories, each by its place. -/
structure Folder where
  directories : List Place
  files : List (Place × List UInt8)
  deriving DecidableEq, Repr

/-- Where a path ends. -/
inductive Spot where
  /-- At a place of the folder, whose directory exists. -/
  | inside (place : Place)
  /-- At a directory outside the folder. -/
  | above
  /-- At a name in a directory outside the folder. -/
  | unknown
  | missing
  | blocked
  deriving DecidableEq, Repr

namespace Folder

/-- The bytes of the file at a place. -/
def bytes? (f : Folder) (place : Place) : Option (List UInt8) :=
  f.files.lookup place

/-- The place is a directory: the top, a directory of its own, or one around another place. -/
def isDirectory (f : Folder) (place : Place) : Bool :=
  place.isEmpty || f.directories.any place.isPrefixOf
    || f.files.any fun e => place.isPrefixOf e.1 && place != e.1

/-- What stands at a place. -/
def targetAt (f : Folder) (place : Place) : Target :=
  match f.bytes? place with
  | some bytes => .file bytes
  | none => if f.isDirectory place then .directory else .vacant

/-- Where one name more leads to. -/
def step (f : Folder) (name : String) : Spot → Spot
  | .inside place =>
    match f.targetAt place with
    | .directory =>
      if name ≠ ".." then .inside (place ++ [name])
      else if place.isEmpty then .above
      else .inside place.dropLast
    | .file _ => .blocked
    | _ => .missing
  | .above => if name = ".." then .above else .unknown
  | .unknown => .missing
  | .missing => .missing
  | .blocked => .blocked

/-- Where a path ends. -/
def locate (f : Folder) (path : Path) : Spot :=
  path.names.foldl (fun spot name => f.step name spot)
    (if path.root = .relative then .inside [] else .above)

/-- What stands where a path ends. -/
def targetOf (f : Folder) : Spot → Target
  | .inside place => f.targetAt place
  | .above => .directory
  | .unknown => .vacant
  | .missing => .missing
  | .blocked => .blocked

/-- What a path leads to. -/
def find (f : Folder) (path : Path) : Target :=
  f.targetOf (f.locate path)

/-- Puts a file at a place, over the one that may be there. -/
def put (f : Folder) (place : Place) (bytes : List UInt8) : Folder :=
  { f with files := f.files.filter (·.1 != place) ++ [(place, bytes)] }

/-- Writes a file. One outside the folder leaves the folder as it is. -/
def write (f : Folder) (path : Path) (bytes : List UInt8) : Except WriteError Folder :=
  match (f.find path).obstacle? path, f.locate path with
  | some e, _ => .error e
  | none, .inside place => .ok (f.put place bytes)
  | none, _ => .ok f

/-- The files of a folder that an earlier one lacks or holds with other bytes. -/
def changes (before after : Folder) : List (Place × List UInt8) :=
  after.files.filter fun e => before.bytes? e.1 != some e.2

end Folder

end Scribe.CommandLine
