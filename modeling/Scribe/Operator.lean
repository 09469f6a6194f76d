/-!
# Operators

The operators of expressions, in the spelling of the output. Reading folds the word operators of
the source into the same vocabulary: `and` and `or`, `is` and `is not`, and the old `<>`.
-/

namespace Scribe

/-- A binary operator or comparison. -/
inductive BinaryOp where
  | add | sub | mul | div | floorDiv | mod | pow
  | bitAnd | bitOr | bitXor | shiftLeft | shiftRight
  | lt | le | gt | ge | eq | ne
  | and | or
  deriving DecidableEq, Repr

/-- A unary arithmetic operator. -/
inductive UnaryOp where
  | pos | neg | invert
  deriving DecidableEq, Repr

/-- What a starred name collects: the rest of a list, or the rest of the named values. -/
inductive Splat where
  | list | dictionary
  deriving DecidableEq, Repr

namespace BinaryOp

/-- The operator as it is written. -/
def spelling : BinaryOp → String
  | add => "+" | sub => "-" | mul => "*" | div => "/" | floorDiv => "//" | mod => "%"
  | pow => "**" | bitAnd => "&" | bitOr => "|" | bitXor => "^" | shiftLeft => "<<"
  | shiftRight => ">>" | lt => "<" | le => "<=" | gt => ">" | ge => ">=" | eq => "=="
  | ne => "!=" | and => "&&" | or => "||"

/-- The operator's name in listings. -/
def label : BinaryOp → String
  | add => "ADD" | sub => "SUB" | mul => "MUL" | div => "DIV" | floorDiv => "FLOOR_DIV"
  | mod => "MOD" | pow => "POW" | bitAnd => "BIT_AND" | bitOr => "BIT_OR" | bitXor => "BIT_XOR"
  | shiftLeft => "LSHIFT" | shiftRight => "RSHIFT" | lt => "LT" | le => "LE" | gt => "GT"
  | ge => "GE" | eq => "EQ" | ne => "NE" | and => "AND" | or => "OR"

/-- Every operator. -/
def all : List BinaryOp :=
  [add, sub, mul, div, floorDiv, mod, pow, bitAnd, bitOr, bitXor, shiftLeft, shiftRight, lt, le,
    gt, ge, eq, ne, and, or]

/-- The word operators of the source. -/
def words : List (String × BinaryOp) :=
  [("and", and), ("or", or), ("is", eq), ("is not", ne), ("<>", ne)]

/-- The operator that a token of the source denotes. -/
def ofSpelling? (s : String) : Option BinaryOp :=
  match words.lookup s with
  | some op => some op
  | none => all.find? (·.spelling == s)

/-- Every operator is denoted by its own spelling. -/
theorem ofSpelling?_spelling (op : BinaryOp) : ofSpelling? op.spelling = some op := by
  cases op <;> decide

end BinaryOp

namespace UnaryOp

/-- The operator as it is written. -/
def spelling : UnaryOp → String
  | pos => "+" | neg => "-" | invert => "~"

/-- The operator's name in listings. -/
def label : UnaryOp → String
  | pos => "POS" | neg => "NEG" | invert => "INVERT"

/-- The operator that a token denotes. -/
def ofSpelling? (s : String) : Option UnaryOp :=
  [pos, neg, invert].find? (·.spelling == s)

/-- Every operator is denoted by its own spelling. -/
theorem ofSpelling?_spelling (op : UnaryOp) : ofSpelling? op.spelling = some op := by
  cases op <;> decide

end UnaryOp

namespace Splat

/-- The collected part as a word. -/
def word : Splat → String
  | list => "list" | dictionary => "dictionary"

/-- The collected part's name in listings. -/
def label : Splat → String
  | list => "LIST" | dictionary => "DICTIONARY"

/-- The collected part that a word names. -/
def ofWord? (s : String) : Option Splat :=
  [list, dictionary].find? (·.word == s)

end Splat

/-- The assignment operators that are carried over as they are. -/
def assignmentOperators : List String :=
  ["=", "+=", "-=", "*=", "/=", "%=", "**=", "&=", "|=", "^=", "<<=", ">>="]

end Scribe
