import Scribe.Cst.Basic
import Scribe.Fault
import Scribe.Text.Quote

/-!
# Parsed trees

What the parser returns for a source text: a tree of byte ranges with positions, in which broken
places are marked. `ParsedTree.read` refuses a broken tree at the first broken place, and otherwise
cuts the text of every leaf out of the bytes of the source.

Some kinds become leaves although the grammar gives them parts: names, literals, types, decorators
and comments are carried as text.
-/

namespace Scribe

/-- A row and a column, both from zero; columns count bytes. -/
structure Point where
  row : Nat
  column : Nat
  deriving DecidableEq, Repr

/-- A node as the parser returns it. -/
inductive ParsedTree where
  | node (kind : String) (startByte endByte : Nat) (start stop : Point)
      (children : List ParsedTree) (hasError isMissing : Bool)

namespace ParsedTree

/-- The grammar's name of the root. -/
def kind : ParsedTree → String
  | node k _ _ _ _ _ _ _ => k

/-- The tree holds a broken place. -/
def hasError : ParsedTree → Bool
  | node _ _ _ _ _ _ e _ => e

/-- The root was put in by the parser where the text lacks something. -/
def isMissing : ParsedTree → Bool
  | node _ _ _ _ _ _ _ m => m

/-- The root is a broken place. -/
def isBroken (t : ParsedTree) : Bool :=
  t.kind == "ERROR" || t.isMissing

/-- Lines and columns from one. -/
def span : ParsedTree → Span
  | node _ sb eb s e _ _ _ =>
    ⟨s.row + 1, s.column + 1, e.row + 1, e.column + 1, sb, eb⟩

/-! ## Broken places -/

mutual

/-- The first broken place of a tree that is marked. Only marked children are searched, and none
below a broken place. -/
def firstBroken? : ParsedTree → Option ParsedTree
  | node k sb eb s e cs err m =>
    if k == "ERROR" || m then some (node k sb eb s e cs err m) else firstBrokenOf? cs

/-- The first broken place of trees. -/
def firstBrokenOf? : List ParsedTree → Option ParsedTree
  | [] => none
  | c :: cs =>
    if c.hasError || c.isMissing then
      match c.firstBroken? with
      | some b => some b
      | none => firstBrokenOf? cs
    else firstBrokenOf? cs

end

/-- The fault of a text that does not parse at a node. -/
def brokenFault (file : String) (t : ParsedTree) : Fault :=
  ⟨.parse ("Parse error: invalid syntax near " ++ Text.quoted t.kind),
    some (t.span.location file)⟩

/-! ## Leaves -/

/-- Kinds that become leaves whatever the grammar gives them. -/
def atomicKinds : List String :=
  ["identifier", "string", "integer", "float", "true", "false", "none", "type", "decorator",
    "comment", "line_continuation", "ellipsis", "pass_statement", "break_statement",
    "continue_statement", "keyword_separator", "positional_separator"]

/-- The bytes from `start` up to `stop`. -/
def slice (bytes : List UInt8) (start stop : Nat) : List UInt8 :=
  (bytes.take stop).drop start

/-- The text of a leaf. -/
def leafText (bytes : List UInt8) (start stop : Nat) : Result String :=
  match Text.decode (slice bytes start stop) with
  | .ok cs => .ok (.ofList cs)
  | .error e => .error (.defect (.undecodable e))

mutual

/-- The concrete tree over the bytes of a source. -/
def toCst (bytes : List UInt8) : ParsedTree → Result Cst
  | node k sb eb s e cs err m =>
    let sp := (node k sb eb s e cs err m).span
    if atomicKinds.contains k || cs.isEmpty then do
      let t ← leafText bytes sb eb
      return .leaf (.ofName k) t (some sp)
    else do
      let children ← toCsts bytes cs
      return .tree (.ofName k) children (some sp)

/-- The concrete trees over the bytes of a source. -/
def toCsts (bytes : List UInt8) : List ParsedTree → Result (List Cst)
  | [] => .ok []
  | c :: cs => do
    let t ← c.toCst bytes
    let ts ← toCsts bytes cs
    return t :: ts

end

/-- The concrete tree of a source text, or the fault at its first broken place. -/
def read (file source : String) (t : ParsedTree) : Result Cst :=
  if t.hasError then .error (.fault (brokenFault file (t.firstBroken?.getD t)))
  else t.toCst (Text.encode source.toList)

end ParsedTree

end Scribe
