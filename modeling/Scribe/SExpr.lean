/-!
# S-expressions

Symbols, texts, truth values and lists, and two ways to write them:

* `SExpr.pretty` breaks a list over several lines when it does not fit into eighty columns. It is
  the layout of this program.
* `SExpr.compact` writes everything on one line. It is not a format of this program: dumps that
  are not pretty are handed to the library `sexpdata`, and `compact` follows the format that the
  library documents for `dumps`.

The two differ in what they escape and in how they write truth values.
-/

namespace Scribe

/-- An S-expression. -/
inductive SExpr where
  | symbol (name : String)
  | text (s : String)
  | flag (b : Bool)
  | list (items : List SExpr)

namespace SExpr

/-- A text between quotes, with a backslash in front of the characters that `escape` names anew. -/
def quotedBy (escape : Char → Option Char) (s : String) : String :=
  .ofList ('"' :: (s.toList.flatMap fun c =>
    match escape c with
    | some e => ['\\', e]
    | none => [c]) ++ ['"'])

/-! ## Pretty -/

/-- Two spaces for each level. -/
def margin (level : Nat) : String :=
  .ofList (List.replicate (2 * level) ' ')

/-- The columns of a line. -/
def lineWidth : Nat := 80

/-- In pretty texts the backslash and the quote are escaped. -/
def prettyEscape (c : Char) : Option Char :=
  if c = '\\' || c = '"' then some c else none

/-- A list whose items are written already: on one line if it fits, and otherwise with each item
but the first on a line of its own. -/
def prettyList (level : Nat) (parts : List String) : String :=
  let oneLine := "(" ++ " ".intercalate parts ++ ")"
  if oneLine.length + 2 * level ≤ lineWidth && !oneLine.toList.contains '\n' then oneLine
  else
    match parts with
    | [] => "()"
    | first :: rest =>
      "(" ++ first ++ "".intercalate (rest.map fun p => "\n" ++ margin (level + 1) ++ p) ++ "\n"
        ++ margin level ++ ")"

mutual

/-- The expression at a level of nesting, over several lines where needed. -/
def pretty (level : Nat) : SExpr → String
  | .symbol name => name
  | .text s => quotedBy prettyEscape s
  | .flag b => if b then "true" else "false"
  | .list items => prettyList level (prettyAll (level + 1) items)

/-- The expressions at a level of nesting. -/
def prettyAll (level : Nat) : List SExpr → List String
  | [] => []
  | e :: es => e.pretty level :: prettyAll level es

end

/-! ## Compact

The format of the library `sexpdata`: what it escapes in texts and in symbols, and `t` and `()` for
the truth values. -/

/-- In compact texts control characters with a letter of their own are escaped too. -/
def compactEscape (c : Char) : Option Char :=
  if c = '\\' || c = '"' then some c
  else if c = '\x08' then some 'b'
  else if c = '\x0c' then some 'f'
  else if c = '\n' then some 'n'
  else if c = '\r' then some 'r'
  else if c = '\t' then some 't'
  else none

/-- A character that a compact symbol shows behind a backslash. -/
def isSymbolSpecial (c : Char) : Bool :=
  ['\\', '\'', '"', '(', ')', '[', ']', ',', '?', ';', '#', '\x60', ' '].contains c

/-- A symbol in compact text. -/
def compactSymbol (name : String) : String :=
  .ofList (name.toList.flatMap fun c => if isSymbolSpecial c then ['\\', c] else [c])

mutual

/-- The expression on one line, as the library `sexpdata` writes it. -/
def compact : SExpr → String
  | .symbol name => compactSymbol name
  | .text s => quotedBy compactEscape s
  | .flag b => if b then "t" else "()"
  | .list items => "(" ++ " ".intercalate (compactAll items) ++ ")"

/-- The expressions, each on one line. -/
def compactAll : List SExpr → List String
  | [] => []
  | e :: es => e.compact :: compactAll es

end

end SExpr

end Scribe
