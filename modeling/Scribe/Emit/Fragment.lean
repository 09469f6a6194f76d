import Scribe.Literal
import Scribe.Text.Lines

/-!
# Fragments

The text of a statement is a list of lines. A definition may also need blocks in front of the
top-level statement it stands in; these travel beside the lines as the *prologue*.

Indentation cuts every line at its newlines first. A newline inside a template literal is held back
(`Literal.heldNewline`) until `assemble` puts a block together, so that it is never indented.
-/

namespace Scribe

/-- The lines of statements, and the blocks they need in front of them. -/
structure Fragment where
  lines : List String
  prologue : List String
  deriving DecidableEq, Repr

namespace Fragment

/-- No lines. -/
def empty : Fragment := ⟨[], []⟩

/-- Lines that need nothing in front of them. -/
def ofLines (lines : List String) : Fragment := ⟨lines, []⟩

/-- One fragment after another. -/
def append (a b : Fragment) : Fragment :=
  ⟨a.lines ++ b.lines, a.prologue ++ b.prologue⟩

instance : Append Fragment := ⟨append⟩

end Fragment

/-- A line at a depth of indentation; an empty one stays empty. -/
def indentLine (depth : Nat) (line : String) : String :=
  if line.isEmpty then line else .ofList (List.replicate (2 * depth) ' ') ++ line

/-- Lines at a depth of indentation, cut at their newlines. -/
def indent (depth : Nat) (lines : List String) : List String :=
  lines.flatMap fun line => (Text.lines line).map (indentLine depth)

/-- Lines as one block, with the newlines of template literals in place. -/
def assemble (lines : List String) : String :=
  Literal.releaseNewlines (Text.unlines lines)

/-- Lines between braces after an opening line. -/
def braced (opening : String) (body : List String) : List String :=
  opening :: indent 1 body ++ ["\x7d"]

/-- The lines of an expression statement or assignment. Without semicolons a line that starts with
an open bracket would continue the line before it, so it gets one in front. -/
def statementLines (text : String) : List String :=
  Text.lines (match text.toList with
    | '[' :: _ => ";" ++ text
    | '(' :: _ => ";" ++ text
    | _ => text)

end Scribe
