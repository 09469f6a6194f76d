import Scribe.Build.Part

/-!
# Sequences

Items between separators, with gaps: every separator opens a new place, whether or not an item
stood at the place before it, so that `[, a]` has a gap in front and `[a, ]` one at the end.
-/

namespace Scribe

/-- The places of a sequence after another separator. -/
def Items.separate : List (Option Expr) → List (Option Expr)
  | [] => [none, none]
  | is => is ++ [none]

/-- The places of a sequence after an item at the last place. -/
def Items.place (e : Expr) : List (Option Expr) → List (Option Expr)
  | [] => [some e]
  | is => is.dropLast ++ [some e]

/-- Brackets around a sequence. -/
def bracketTokens : List String := ["(", ")", "[", "]", "\x7b", "\x7d"]

/-- Fills the places of a sequence from left to right. -/
def buildItems (build : Part → Traced Expr) (items : List (Option Expr)) :
    List Part → Traced (List (Option Expr))
  | [] => pure items
  | p :: ps =>
    if p.isTokenOf bracketTokens then buildItems build items ps
    else if p.isToken "," then buildItems build (Items.separate items) ps
    else do
      let e ← build p
      buildItems build (Items.place e items) ps

namespace Branch

/-- The items of a node, each built in the node's context. -/
def items (b : Branch) (c : Context) (build : Part → Context → Traced Expr) :
    Traced (List (Option Expr)) :=
  buildItems (build · (c.within b.kind)) [] b.parts

/-- A sequence of elements. -/
def elements (b : Branch) (kind : SequenceKind) (c : Context) : Traced Expr := do
  let is ← b.items c Part.element
  return .sequence kind is b.loc

/-- A sequence of targets. -/
def targets (b : Branch) (kind : SequenceKind) (c : Context) : Traced Expr := do
  let is ← b.items c Part.target
  return .sequence kind is b.loc

/-- The entries of a dictionary: pairs and starred names. -/
def dictionary (b : Branch) (c : Context) : Traced Expr := do
  let inner := c.within b.kind
  let es ← buildEach (fun p => match p.kind with
    | .pair => p.entry inner
    | .dictionarySplat => p.argument inner
    | _ => p.refuse inner) (b.partsWithout ("," :: bracketTokens))
  return .dictionary es b.loc

/-- A key and its value. -/
def pair (b : Branch) (c : Context) : Traced Expr := do
  let inner := c.within b.kind
  match b.partsWithout [":"] with
  | [k, v] =>
    let key ← k.expression inner
    let value ← v.expression inner
    return .pair key value b.loc
  | _ => b.refuse c

end Branch

end Scribe
