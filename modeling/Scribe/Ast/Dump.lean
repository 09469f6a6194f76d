import Scribe.Ast.Record
import Scribe.SExpr

/-!
# Dumps

A dump shows a node as an S-expression: its kind, then a list for each field. A field that holds
nothing, and an empty list of decorators, are left out; a missing item of a sequence is `nil`, and
the last resort of a chain of choices has the test `else`. A dump may add the places of nodes.
-/

namespace Scribe

/-- How a dump is written. -/
structure DumpStyle where
  /-- Over several lines. -/
  pretty : Bool
  /-- With the places of nodes. -/
  located : Bool
  deriving DecidableEq, Repr

namespace Value

/-- The field is left out of a dump. -/
def isOmitted (name : String) : Value → Bool
  | .absent => true
  | .list [] => name == "decorators"
  | _ => false

mutual

/-- The record as an S-expression, with or without places. -/
def sexpr (located : Bool) : Value → SExpr
  | .absent => .symbol "nil"
  | .text s => .text s
  | .flag b => .flag b
  | .member _ _ spelling => .symbol spelling
  | .list items => .list (sexprs located items)
  | .choice .absent body => .list [.symbol "choice", .symbol "else", .list (sexprs located body)]
  | .choice test body =>
    .list [.symbol "choice", sexpr located test, .list (sexprs located body)]
  | .record kind fields loc =>
    .list (.symbol kind.name :: fieldSexprs located fields
      ++ (match located, loc with
        | true, some l => [.list [.symbol ":at", .text l.text]]
        | _, _ => []))

/-- The values as S-expressions. -/
def sexprs (located : Bool) : List Value → List SExpr
  | [] => []
  | v :: vs => sexpr located v :: sexprs located vs

/-- The fields that a dump shows. -/
def fieldSexprs (located : Bool) : List (String × Value) → List SExpr
  | [] => []
  | (name, v) :: fields =>
    if v.isOmitted name then fieldSexprs located fields
    else .list [.symbol (":" ++ name), sexpr located v] :: fieldSexprs located fields

end

end Value

/-- The dump of a node. -/
def Node.dump (style : DumpStyle) (n : Node) : String :=
  let e := n.value.sexpr style.located
  if style.pretty then e.pretty 0 else e.compact

end Scribe
