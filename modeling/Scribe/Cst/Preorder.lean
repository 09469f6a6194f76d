import Scribe.Cst.Parsed
import Scribe.Text.Lines

/-!
# Parsed trees as text

The parser is a program of its own and hands its tree over as text, with a line for each node and
every node in front of its children. A line holds the number of children, the byte range, the rows
and columns of both ends, the marks (1 for a broken place inside, 2 for a node that was put in) and
the grammar's name, with a space between neighbours. The name comes last, since it may hold spaces.

Lines are read from the last to the first: the children of a node are then the trees read latest.
-/

namespace Scribe.ParsedTree

/-- Puts the node of a line in front of the trees that follow it, the first of which become its
children. -/
def ofLine? (line : String) (following : List ParsedTree) : Option (List ParsedTree) :=
  match (line.toList.splitOn ' ').map String.ofList with
  | count :: startByte :: endByte :: row :: column :: endRow :: endColumn :: marks :: name => do
    let n ← count.toNat?
    let m ← marks.toNat?
    let start : Point := ⟨← row.toNat?, ← column.toNat?⟩
    let stop : Point := ⟨← endRow.toNat?, ← endColumn.toNat?⟩
    if following.length < n then none
    else
      some (.node (" ".intercalate name) (← startByte.toNat?) (← endByte.toNat?) start stop
        (following.take n) (m % 2 == 1) (m / 2 % 2 == 1) :: following.drop n)
  | _ => none

/-- The trees of lines. -/
def ofLines? : List String → Option (List ParsedTree)
  | [] => some []
  | line :: lines => (ofLines? lines).bind (ofLine? line)

/-- The tree of a text, if it is the text of one tree. -/
def ofText? (text : String) : Option ParsedTree :=
  match ofLines? (Text.breakLines text) with
  | some [tree] => some tree
  | _ => none

end Scribe.ParsedTree
