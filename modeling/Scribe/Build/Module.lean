import Scribe.Build.Statement
import Scribe.Cst.Basic

/-!
# Modules from trees

The rules of the builder folded over a concrete tree: every node becomes a part from the parts of
its children, without the extras among them. The part of the root builds the module.
-/

namespace Scribe

/-- A node as its parent sees it. -/
def Branch.part (b : Branch) : Part where
  kind := b.kind
  text := b.text
  loc := b.loc
  statement := b.statement
  expression := b.expression
  argument := b.argument
  element := b.element
  target := b.target
  parameter := b.parameter
  body := b.body
  arguments := b.arguments
  parameters := b.parameters
  choice := b.choice
  assignment := b.assignment
  definition := b.definition
  entry := b.pair
  bounds := b.bounds
  starred := b.starred

namespace Cst

mutual

/-- A tree as its parent sees it. -/
def part (file : String) : Cst → Part
  | leaf kind text span => Branch.part ⟨kind, text, span.map (Span.location file), []⟩
  | tree kind children span =>
    Branch.part ⟨kind, (tree kind children span).text, span.map (Span.location file),
      (partsOf file children).filter (!·.kind.isExtra)⟩

/-- Trees as their parent sees them. -/
def partsOf (file : String) : List Cst → List Part
  | [] => []
  | c :: cs => c.part file :: partsOf file cs

end

/-- The module of a tree whose root is a module. -/
def build (file : String) (c : Cst) : Traced Program := do
  let p := c.part file
  if p.kind ≠ .moduleRoot then p.refuse .root
  else do
    let body ← p.body .root
    return ⟨body, p.loc⟩

end Cst

end Scribe
