import Scribe.Text.Letter

/-!
# Identifiers

Variables, functions and properties are written in camel case, classes and types in Pascal case.
The name is cut into words, at underscores and at changes between lower case, upper case and
digits, and the words are joined again in the wanted case:

```text
my_value     ⟶   myValue      MyValue
MAX_SIZE     ⟶   maxSize      MaxSize
getHTTPBody  ⟶   getHttpBody  GetHttpBody
```

Leading and trailing underscores stay. A name that is in capitalised words already (`HttpServer`)
stays as it is. A variable whose name the output language reserves gets a trailing underscore.

Words are made of ASCII letters and digits; every other character only separates them. A name
without any word stays as it is.
-/

namespace Scribe.Identifier

open Scribe.Text

/-- Words that the output language reserves. -/
def reserved : List String :=
  ["break", "case", "catch", "class", "const", "continue", "debugger", "default", "delete", "do",
    "else", "enum", "export", "extends", "false", "finally", "for", "function", "if", "import",
    "in", "instanceof", "new", "null", "return", "super", "switch", "this", "throw", "true", "try",
    "typeof", "var", "void", "while", "with", "let", "static", "yield", "await", "implements",
    "interface", "package", "private", "protected", "public"]

/-! ## Words -/

/-- A character that words are made of. -/
def isWordChar (c : Char) : Bool :=
  c.isUpper || c.isLower || c.isDigit

/-- The character `a` is in one word with the first of the characters after it: two lower-case
letters, two digits, a capital and its lower-case letter, or two capitals of which the second does
not start a capitalised word. -/
def joins (a : Char) : List Char → Bool
  | [] => false
  | b :: rest =>
    (a.isLower && b.isLower) || (a.isDigit && b.isDigit) || (a.isUpper && b.isLower)
      || (a.isUpper && b.isUpper && !rest.head?.any Char.isLower)

/-- The words of a name. -/
def words : List Char → List (List Char)
  | [] => []
  | a :: rest =>
    if !isWordChar a then words rest
    else match joins a rest, words rest with
      | true, w :: ws => (a :: w) :: ws
      | _, ws => [a] :: ws

/-- A word in lower case. -/
def lower (w : List Char) : List Char :=
  w.map Char.toLower

/-- A word with a capital and the rest in lower case. -/
def capitalize : List Char → List Char
  | [] => []
  | c :: cs => c.toUpper :: lower cs

/-! ## Underscores at the ends -/

/-- A name between its leading and trailing underscores. A name of underscores only is all
core. -/
structure Parts where
  lead : List Char
  core : List Char
  trail : List Char
  deriving DecidableEq, Repr

/-- The parts of a name. -/
def parts (name : List Char) : Parts :=
  if name.all (· == '_') then ⟨[], name, []⟩
  else
    let rest := name.dropWhile (· == '_')
    let trail := rest.reverse.takeWhile (· == '_')
    ⟨name.takeWhile (· == '_'), rest.take (rest.length - trail.length), trail⟩

/-- A core in capitalised words: it starts with a capital, has a lower-case letter, and no
underscore. -/
def isCapitalized (core : List Char) : Bool :=
  core.head?.any isUpper && !core.contains '_' && core.any isLower

/-- The name with the words of its core joined by `join`. A core in capitalised words or without
any word stays. -/
def convert (join : List (List Char) → List Char) (name : List Char) : Parts :=
  let p := parts name
  if isCapitalized p.core then p
  else match words p.core with
    | [] => p
    | ws => { p with core := join ws }

/-- Words in camel case. -/
def joinCamel : List (List Char) → List Char
  | [] => []
  | w :: ws => lower w ++ (ws.map capitalize).flatten

/-- Words in Pascal case. -/
def joinPascal (ws : List (List Char)) : List Char :=
  (ws.map capitalize).flatten

/-- The whole name. -/
def Parts.name (p : Parts) : List Char :=
  p.lead ++ p.core ++ p.trail

/-! ## Names in the output -/

/-- The name of a property: camel case, reserved words allowed. -/
def property (name : String) : String :=
  .ofList (convert joinCamel name.toList).name

/-- The name of a variable: camel case, with a trailing underscore for a reserved word. -/
def camel (name : String) : String :=
  let text := property name
  if reserved.contains text then text ++ "_" else text

/-- The name of a class or type: Pascal case. -/
def pascal (name : String) : String :=
  .ofList (convert joinPascal name.toList).name

end Scribe.Identifier
