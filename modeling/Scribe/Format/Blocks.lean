import Scribe.Event
import Scribe.Text.Blank
import Scribe.Text.Lines

/-!
# Blocks

The text of a module is its blocks with a blank line between neighbours. Blocks are formatted one at
a time; one that cannot be formatted keeps its text, and the others are not affected.
-/

namespace Scribe

/-- Formats a block, or says why it cannot. -/
abbrev Formatter := String → Except String String

/-- Blocks with a blank line between neighbours and a newline at the end. Newlines at the ends of a
block are dropped. -/
def joinBlocks (blocks : List String) : String :=
  "\n\n".intercalate (blocks.map fun b => .ofList (Text.trim (· == '\n') b.toList)) ++ "\n"

/-- A block after formatting, or its old text if it cannot be formatted. -/
def formatBlock (format : Formatter) (block : String) : String :=
  match format block with
  | .ok text => text
  | .error _ => block

/-- The event of the block with this number, if it cannot be formatted. -/
def formatEvent (format : Formatter) (total number : Nat) (block : String) : List Event :=
  match format block with
  | .ok _ => []
  | .error reason => [.unformatted number total reason]

/-- The events of formatting the blocks from this number on. -/
def formatEventsFrom (format : Formatter) (total number : Nat) : List String → List Event
  | [] => []
  | b :: bs => formatEvent format total number b ++ formatEventsFrom format total (number + 1) bs

/-- Blocks after formatting. -/
def formatBlocks (format : Formatter) (blocks : List String) : List String :=
  blocks.map (formatBlock format)

/-- The events of formatting blocks, which are counted from one. -/
def formatEvents (format : Formatter) (blocks : List String) : List Event :=
  formatEventsFrom format blocks.length 1 blocks

end Scribe
