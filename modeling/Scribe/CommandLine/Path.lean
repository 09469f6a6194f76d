import Scribe.Text.Quote

/-!
# Paths

A path is a root and the names along the way. Repeated slashes, a slash at the end and the name `.`
make no difference; `..` is kept, since it may lead elsewhere than its text suggests.

`Path.withSuffix` replaces the suffix of the last name, which is how the place of the output is
derived from the place of the source.
-/

namespace Scribe.CommandLine

/-- Where a path starts. -/
inductive Root where
  /-- At the current directory. -/
  | relative
  /-- At the top of all directories. -/
  | absolute
  /-- At the place that exactly two slashes stand for. -/
  | special
  deriving DecidableEq, Repr

/-- The root as it is written. -/
def Root.text : Root → String
  | relative => ""
  | absolute => "/"
  | special => "//"

/-- A place among files and directories. -/
structure Path where
  root : Root
  names : List String
  deriving DecidableEq, Repr

/-- Why a suffix cannot be replaced. -/
inductive PathError where
  /-- The path has no last name. -/
  | unnamed (path : Path)
  deriving DecidableEq, Repr

namespace Path

/-- The root that a text starts with. -/
def rootOf : List Char → Root
  | '/' :: '/' :: '/' :: _ => .absolute
  | '/' :: '/' :: _ => .special
  | '/' :: _ => .absolute
  | _ => .relative

/-- A piece between slashes that leads somewhere. -/
def isName (piece : List Char) : Bool :=
  !piece.isEmpty && piece != ['.']

/-- The path that a text denotes. -/
def ofText (s : String) : Path :=
  ⟨rootOf s.toList, ((s.toList.splitOn '/').filter isName).map .ofList⟩

/-- The path as it is written. -/
def text (p : Path) : String :=
  if p.root = .relative && p.names.isEmpty then "."
  else p.root.text ++ "/".intercalate p.names

/-- The last name, if there is one. -/
def name? (p : Path) : Option String :=
  p.names.getLast?

/-- Cuts a name in front of its suffix, which starts at the last dot. A dot at either end of the
name starts none. -/
def cutSuffix (name : String) : String × String :=
  let after := name.toList.reverse.takeWhile (· != '.')
  let before := (name.toList.reverse.drop (after.length + 1)).reverse
  if after.isEmpty || before.isEmpty then (name, "")
  else (.ofList before, .ofList ('.' :: after.reverse))

/-- The suffix of the last name. -/
def suffix (p : Path) : String :=
  match p.name? with
  | some name => (cutSuffix name).2
  | none => ""

/-- The path with another suffix in place of that of its last name. -/
def withSuffix (p : Path) (suffix : String) : Except PathError Path :=
  match p.name? with
  | some name => .ok ⟨p.root, p.names.dropLast ++ [(cutSuffix name).1 ++ suffix]⟩
  | none => .error (.unnamed p)

/-- The suffix of a module to compile. -/
def sourceSuffix : String := ".py"

/-- The suffix of a compiled module. -/
def outputSuffix : String := ".ts"

/-- Where the output of a source is written: beside it. -/
def beside (source : Path) : Except PathError Path :=
  source.withSuffix outputSuffix

end Path

/-- The reason in words. -/
def PathError.message : PathError → String
  | .unnamed path => "PosixPath(" ++ Text.quoted path.text ++ ") has an empty name"

end Scribe.CommandLine
