import Scribe.Ast.Record
import Scribe.Text.Quote

/-!
# Listings

A listing shows a node on one line as its label with all fields in parentheses, places left out.
-/

namespace Scribe

namespace Value

mutual

/-- The record on one line. -/
def listing : Value → String
  | .absent => "None"
  | .text s => Text.quoted s
  | .flag b => if b then "True" else "False"
  | .member family label spelling =>
    "<" ++ family ++ "." ++ label ++ ": " ++ Text.quoted spelling ++ ">"
  | .list items => "[" ++ ", ".intercalate (listings items) ++ "]"
  | .choice test body =>
    "IfChoice(test=" ++ listing test ++ ", body=[" ++ ", ".intercalate (listings body) ++ "])"
  | .record kind fields _ =>
    kind.label ++ "(" ++ ", ".intercalate (fieldListings fields) ++ ")"

/-- The values, each on one line. -/
def listings : List Value → List String
  | [] => []
  | v :: vs => listing v :: listings vs

/-- The fields as `name=value`. -/
def fieldListings : List (String × Value) → List String
  | [] => []
  | (name, v) :: fields => (name ++ "=" ++ listing v) :: fieldListings fields

end

end Value

/-- The listing of a node. -/
def Node.listing (n : Node) : String :=
  n.value.listing

end Scribe
