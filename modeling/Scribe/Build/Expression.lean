import Scribe.Build.Parameter
import Scribe.Build.Sequence
import Scribe.Literal

/-!
# Expressions from trees

The rules for values, arguments, elements and targets. A chain of comparisons becomes the
conjunction of its comparisons, each built from its own two operands.
-/

namespace Scribe

namespace Branch

/-- A property of an object. -/
def memberAccess (b : Branch) (c : Context) : Traced Expr := do
  let inner := c.within b.kind
  match b.partsWithout ["."] with
  | [o, p] =>
    if p.kind ≠ .identifier then b.refuse c
    else do
      let object ← o.expression inner
      return .member object (.reference p.text none p.loc) b.loc
  | _ => b.refuse c

/-- A call. Without any part the tree is broken. -/
def call (b : Branch) (c : Context) : Traced Expr := do
  let inner := c.within b.kind
  match b.parts, b.parts.getLast? with
  | [f, as], _ =>
    if as.kind ≠ .argumentList then as.refuse inner
    else do
      let callee ← f.expression inner
      let arguments ← as.arguments inner
      return .call callee arguments b.loc
  | _, some last => last.refuse inner
  | _, none => .fail (.defect .missingPart)

/-- A list of arguments. -/
def arguments (b : Branch) (c : Context) : Traced (List Expr) :=
  buildEach (·.argument (c.entering b.kind "argument_list")) (b.partsWithout ["(", ")", ","])

/-- An argument that is passed by name. -/
def keywordArgument (b : Branch) (c : Context) : Traced Expr := do
  let inner := c.within b.kind
  match b.partsWithout ["="] with
  | [n, v] =>
    if n.kind ≠ .identifier then b.refuse c
    else do
      let value ← v.expression inner
      return .keywordArgument n.text value b.loc
  | _ => b.refuse c

/-- What the star in front of a spread name spreads. -/
def starSplat? (p : Part) : Option Splat :=
  if p.isToken "*" then some .list else if p.isToken "**" then some .dictionary else none

/-- A name that is spread. -/
def splat (b : Branch) (c : Context) : Traced Expr :=
  match b.parts with
  | [star, p] =>
    match starSplat? star with
    | some s =>
      if p.kind ≠ .identifier then p.refuse (c.within b.kind)
      else pure (.reference p.text (some s) b.loc)
    | none => b.refuse c
  | _ => b.refuse c

/-- An index between brackets. -/
def index (p : Part) (inner : Context) : Traced Expr :=
  if p.kind = .slice then p.bounds inner else p.expression inner

/-- An element of a container. Several indices make a tuple; without any part the tree is
broken. -/
def subscript (b : Branch) (c : Context) : Traced Expr := do
  let inner := c.within b.kind
  match b.parts with
  | [] => .fail (.defect .missingPart)
  | v :: rest =>
    let value ← v.expression inner
    let indices ← buildEach (index · inner) (rest.filter (!·.isTokenOf ["[", "]", ","]))
    match indices with
    | [] => b.refuse c
    | [i] => return .subscript value i b.loc
    | is => return .subscript value (.sequence .tuple (is.map some) none) b.loc

/-- The three bounds of a slice. -/
structure Bounds where
  start : Option Expr
  stop : Option Expr
  step : Option Expr

/-- Sets the bound at a place. There are three. -/
def Bounds.set? (bs : Bounds) (place : Nat) (e : Expr) : Option Bounds :=
  match place with
  | 0 => some { bs with start := some e }
  | 1 => some { bs with stop := some e }
  | 2 => some { bs with step := some e }
  | _ => none

/-- Fills the bounds from left to right; every colon goes on to the next place. -/
def buildBounds (inner : Context) (place : Nat) (bs : Bounds) : List Part → Traced Bounds
  | [] => pure bs
  | p :: ps =>
    if p.isToken ":" then buildBounds inner (place + 1) bs ps
    else do
      let e ← p.expression inner
      match bs.set? place e with
      | some bs => buildBounds inner place bs ps
      | none => .fail (.defect .excessBound)

/-- The bounds of a part of a sequence. -/
def bounds (b : Branch) (c : Context) : Traced Expr := do
  let bs ← buildBounds (c.within b.kind) 0 ⟨none, none, none⟩ b.parts
  return .slice bs.start bs.stop bs.step b.loc

/-! ## Operators -/

/-- The operator that a part denotes. -/
def operator (p : Part) (inner : Context) : Traced BinaryOp :=
  match BinaryOp.ofSpelling? p.kind.name with
  | some op => pure op
  | none => p.refuse inner

/-- A binary operation. -/
def binary (b : Branch) (c : Context) : Traced Expr := do
  let inner := c.entering b.kind "binary"
  match b.parts with
  | [l, o, r] =>
    let left ← l.expression inner
    let op ← operator o inner
    let right ← r.expression inner
    return .binary left op right b.loc
  | _ => b.refuse c

/-- The comparisons of a chain: each operator with the operands around it. There is none if the
parts do not alternate between operands and operators. -/
def comparisons : List Part → List (Part × Part × Part)
  | a :: o :: b :: rest => (a, o, b) :: comparisons (b :: rest)
  | _ => []

/-- A single comparison. -/
def comparison (loc : Option Location) (inner : Context) (t : Part × Part × Part) :
    Traced Expr := do
  let left ← t.1.expression inner
  let op ← operator t.2.1 inner
  let right ← t.2.2.expression inner
  return .binary left op right loc

/-- The conjunction of comparisons, grouped from the left. -/
def conjunction (loc : Option Location) (first : Expr) (rest : List Expr) : Expr :=
  rest.foldl (fun acc e => .binary acc .and e loc) first

/-- A comparison or a chain of them. -/
def chain (b : Branch) (c : Context) : Traced Expr := do
  let inner := c.entering b.kind "binary"
  if b.parts.length < 3 ∨ b.parts.length % 2 = 0 then b.refuse c
  else
    match ← buildEach (comparison b.loc inner) (comparisons b.parts) with
    | first :: rest => return conjunction b.loc first rest
    | [] => b.refuse c

/-- A negated truth value. -/
def negation (b : Branch) (c : Context) : Traced Expr := do
  match b.partsWithout ["not"] with
  | [p] =>
    let e ← p.expression (c.within b.kind)
    return .not e b.loc
  | _ => b.refuse c

/-- A unary arithmetic operation. -/
def unary (b : Branch) (c : Context) : Traced Expr := do
  let inner := c.within b.kind
  match b.parts with
  | [o, p] =>
    match UnaryOp.ofSpelling? o.kind.name with
    | none => o.refuse inner
    | some op =>
      let e ← p.expression inner
      return .unary op e b.loc
  | _ => b.refuse c

/-- A choice between two values; the source puts the test in the middle. -/
def conditional (b : Branch) (c : Context) : Traced Expr := do
  let inner := c.within b.kind
  match b.partsWithout ["if", "else"] with
  | [x, t, y] =>
    let consequence ← x.expression inner
    let test ← t.expression inner
    let alternative ← y.expression inner
    return .conditional test consequence alternative b.loc
  | _ => b.refuse c

/-- An expression in grouping parentheses. -/
def parenthesized (b : Branch) (c : Context) : Traced Expr := do
  match b.partsWithout ["(", ")"] with
  | [p] =>
    let e ← p.expression (c.within b.kind)
    return .parenthesized e b.loc
  | _ => b.refuse c

/-- A string literal. One with expressions inside is refused. -/
def string (b : Branch) : Traced Expr :=
  if Literal.isFormatted b.text then
    .fail (.unsupported "interpolation" b.kind.name b.loc)
  else pure (.string b.text b.loc)

/-! ## Roles -/

/-- A value. -/
def expression (b : Branch) (c : Context) : Traced Expr :=
  match b.kind with
  | .identifier => pure b.reference
  | .memberAccess => b.memberAccess c
  | .call => b.call c
  | .subscript => b.subscript c
  | .binaryOperator => b.binary c
  | .booleanOperator => b.binary c
  | .comparisonOperator => b.chain c
  | .notOperator => b.negation c
  | .unaryOperator => b.unary c
  | .conditionalExpression => b.conditional c
  | .parenthesizedExpression => b.parenthesized c
  | .lambda => b.lambda c
  | .string => b.string
  | .integer => pure (.number .integer b.text b.loc)
  | .float => pure (.number .float b.text b.loc)
  | .trueLiteral => pure (.boolean true b.loc)
  | .falseLiteral => pure (.boolean false b.loc)
  | .noneLiteral => pure (.null b.loc)
  | .list => b.elements .list c
  | .tuple => b.elements .tuple c
  | .expressionList => b.elements .tuple c
  | .dictionary => b.dictionary c
  | _ => b.refuse c

/-- An argument of a call or class. -/
def argument (b : Branch) (c : Context) : Traced Expr :=
  match b.kind with
  | .keywordArgument => b.keywordArgument c
  | .listSplat => b.splat c
  | .dictionarySplat => b.splat c
  | _ => b.expression c

/-- An element of a sequence. -/
def element (b : Branch) (c : Context) : Traced Expr :=
  match b.kind with
  | .listSplat => b.splat c
  | _ => b.expression c

/-- Something that is assigned to. -/
def target (b : Branch) (c : Context) : Traced Expr :=
  match b.kind with
  | .identifier => pure b.reference
  | .memberAccess => b.memberAccess c
  | .subscript => b.subscript c
  | .patternList => b.targets .pattern c
  | .tuplePattern => b.targets .tuple c
  | .listPattern => b.targets .list c
  | .listSplatPattern => b.starredReference c
  | _ => b.refuse c

end Branch

end Scribe
