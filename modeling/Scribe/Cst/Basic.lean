import Scribe.Cst.Kind

/-!
# Concrete syntax trees

A concrete tree has a leaf for every token, with its text, and an inner node for every rule of the
grammar. Nodes know their place in the source if the parser gave one: the line and column of the
first character, the byte range, and where the node ends. Lines and columns count from one; columns
count bytes, as the parser reports them.
-/

namespace Scribe

/-- The place of a construct in a source file. -/
structure Location where
  file : String
  line : Int
  column : Int
  start : Int
  stop : Int
  endLine : Int
  endColumn : Int
  deriving DecidableEq, Repr

/-- The place as `file:line:column`. -/
def Location.text (l : Location) : String :=
  l.file ++ ":" ++ toString l.line ++ ":" ++ toString l.column

/-- Where a node stands: lines and columns from one, and the byte range. -/
structure Span where
  line : Int
  column : Int
  endLine : Int
  endColumn : Int
  start : Int
  stop : Int
  deriving DecidableEq, Repr

/-- The place in a file. -/
def Span.location (file : String) (s : Span) : Location :=
  ⟨file, s.line, s.column, s.start, s.stop, s.endLine, s.endColumn⟩

/-- A concrete syntax tree. -/
inductive Cst where
  | leaf (kind : Kind) (text : String) (span : Option Span)
  | tree (kind : Kind) (children : List Cst) (span : Option Span)

namespace Cst

/-- The kind of the root. -/
def kind : Cst → Kind
  | leaf k _ _ => k
  | tree k _ _ => k

/-- The span of the root. -/
def span : Cst → Option Span
  | leaf _ _ s => s
  | tree _ _ s => s

/-- The place of the root in a file. -/
def location (file : String) (c : Cst) : Option Location :=
  c.span.map (Span.location file)

mutual

/-- The texts of the leaves with a space between neighbours. -/
def text : Cst → String
  | leaf _ t _ => t
  | tree _ cs _ => " ".intercalate (texts cs)

/-- The texts of trees. -/
def texts : List Cst → List String
  | [] => []
  | c :: cs => c.text :: texts cs

end

/-- Two spaces for each level. -/
def margin (level : Nat) : String :=
  .ofList (List.replicate (2 * level) ' ')

mutual

/-- The tree with a line for each node, indented by its level. A leaf that is the only child stands
on the line of its parent. -/
def outline (level : Nat) : Cst → String
  | leaf _ t _ => margin level ++ t ++ "\n"
  | tree k [leaf _ t _] _ => margin level ++ k.name ++ "\t" ++ t ++ "\n"
  | tree k cs _ => margin level ++ k.name ++ "\n" ++ outlines (level + 1) cs

/-- The outlines of trees, one after another. -/
def outlines (level : Nat) : List Cst → String
  | [] => ""
  | c :: cs => c.outline level ++ outlines level cs

end

/-- The outline of a tree; a leaf alone has none. -/
def outline? : Cst → Option String
  | leaf .. => none
  | c => some (c.outline 0)

end Cst

end Scribe
