import Scribe.Emit.Fragment
import Scribe.Emit.Scope
import Scribe.Emit.Signature

/-!
# Expressions in the output

`Expr.emit` writes an expression. Expressions are written as they stand in the source: there is no
analysis of precedence, and parentheses appear where the source had them.

What is assigned to is written like what is read, except that a part of a sequence can only be
read. A slice can only be an index, and one with a step has no counterpart.
-/

namespace Scribe

/-- `super()`. -/
def Expr.isSuperCall : Expr → Bool
  | .call (.reference "super" _ _) [] _ => true
  | _ => false

/-- The name of the method that builds an object. -/
def constructorName : String := "__init__"

/-- `super().__init__`. -/
def Expr.isSuperConstructor : Expr → Bool
  | .member object (.reference name _ _) _ => object.isSuperCall && name == constructorName
  | _ => false

/-- The key of a dictionary entry is written without brackets. -/
def Expr.isPlainKey : Expr → Bool
  | .string .. => true
  | .number .integer .. => true
  | _ => false

/-- A binary operation between written operands. -/
def binaryText (op : BinaryOp) (left right : String) : String :=
  if op = .floorDiv then "Math.floor(" ++ left ++ " / " ++ right ++ ")"
  else left ++ " " ++ op.spelling ++ " " ++ right

/-- A function without a name; a body that starts with a brace is put in parentheses, since it would
be read as a block. -/
def lambdaText (parameters : List String) (body : String) : String :=
  let body := if body.toList.head? = some '\x7b' then "(" ++ body ++ ")" else body
  "(" ++ ", ".intercalate parameters ++ ") => " ++ body

/-- The bounds of a part of a sequence. -/
def sliceBounds (start stop : Option String) : List String :=
  match start, stop with
  | none, none => []
  | some a, none => [a]
  | none, some b => ["0", b]
  | some a, some b => [a, b]

/-- A dictionary with written entries. -/
def dictionaryText (entries : List String) : String :=
  if entries.isEmpty then "\x7b\x7d"
  else Text.unlines (braced "\x7b" (entries.map (· ++ ",")))

mutual

/-- The written form of an expression. -/
def Expr.emit (s : Scope) : Expr → Result String
  | .reference name (some _) _ => .ok ("..." ++ Identifier.camel name)
  | .reference name none _ =>
    .ok (if s.receiver = some name then "this" else Identifier.camel name)
  | .defaultParameter name value _ => do
    let v ← value.emit s
    return Identifier.camel name ++ " = " ++ v
  | .typedParameter name type splat _ =>
    match splat with
    | none => do
      let t ← typeName type
      return Identifier.camel name ++ ": " ++ t
    | some .list => do
      let t ← typeName type
      return "..." ++ Identifier.camel name ++ ": Array<" ++ t ++ ">"
    | some .dictionary => .ok ("..." ++ Identifier.camel name)
  | .typedDefaultParameter name _ value _ => do
    let v ← value.emit s
    return Identifier.camel name ++ " = " ++ v
  | .call callee arguments _ => do
    let c ← if callee.isSuperConstructor then .ok "super" else callee.emit s.reading
    let as ← Expr.emitAll s.reading arguments
    return c ++ "(" ++ ", ".intercalate (argumentList (arguments.zip as)) ++ ")"
  | .keywordArgument name value _ => do
    let v ← value.emit s
    return Identifier.property name ++ ": " ++ v
  | .member object property _ => do
    let o ← if object.isSuperCall then .ok "super" else object.emit s.reading
    let p ← match property with
      | .reference name _ _ => .ok (Identifier.property name)
      | e => e.emit s.reading
    return o ++ "." ++ p
  | .subscript value (.slice start stop step loc) _ => do
    let v ← value.emit s.reading
    if step.isSome || s.target then
      throw (.unsupported NodeKind.slice.name NodeKind.subscript.name loc)
    let a ← Expr.emitOption s.reading start
    let b ← Expr.emitOption s.reading stop
    return v ++ ".slice(" ++ ", ".intercalate (sliceBounds a b) ++ ")"
  | .subscript value index _ => do
    let v ← value.emit s.reading
    let i ← index.emit s.reading
    return v ++ "[" ++ i ++ "]"
  | .slice _ _ _ loc => .error (.unsupported NodeKind.slice.name "expression" loc)
  | .binary left op right _ => do
    let l ← left.emit s.reading
    let r ← right.emit s.reading
    return binaryText op l r
  | .not operand _ => do
    let e ← operand.emit s.reading
    return "!" ++ e
  | .unary op operand _ => do
    let e ← operand.emit s.reading
    return op.spelling ++ e
  | .conditional test consequence alternative _ => do
    let t ← test.emit s.reading
    let c ← consequence.emit s.reading
    let a ← alternative.emit s.reading
    return t ++ " ? " ++ c ++ " : " ++ a
  | .parenthesized inner _ => do
    let e ← inner.emit s.reading
    return "(" ++ e ++ ")"
  | .lambda parameters body _ => do
    let slots ← Expr.emitSlots s.reading parameters
    let (ps, _) ← (Signature.ofSlots slots).parameters none
    let b ← body.emit s.reading
    return lambdaText ps b
  | .string text _ => .ok (Literal.written text)
  | .number _ text _ => .ok text
  | .boolean value _ => .ok (if value then "true" else "false")
  | .null _ => .ok "null"
  | .sequence _ items _ => do
    let is ← Expr.emitItems s items
    return "[" ++ ", ".intercalate is ++ "]"
  | .dictionary entries _ => do
    let es ← Expr.emitAll s.reading entries
    return dictionaryText es
  | .pair key value _ => do
    let k ← key.emit s
    let v ← value.emit s
    return (if key.isPlainKey then k else "[" ++ k ++ "]") ++ ": " ++ v

/-- The written forms of expressions. -/
def Expr.emitAll (s : Scope) : List Expr → Result (List String)
  | [] => .ok []
  | e :: es => do
    let t ← e.emit s
    let ts ← Expr.emitAll s es
    return t :: ts

/-- The written form of an optional expression. -/
def Expr.emitOption (s : Scope) : Option Expr → Result (Option String)
  | none => .ok none
  | some e => do
    let t ← e.emit s
    return some t

/-- The written forms of the items of a sequence; a missing one is empty. -/
def Expr.emitItems (s : Scope) : List (Option Expr) → Result (List String)
  | [] => .ok []
  | i :: is => do
    let t ← Expr.emitOption s i
    let ts ← Expr.emitItems s is
    return t.getD "" :: ts

/-- How parameters are passed, with their written forms. -/
def Expr.emitSlots (s : Scope) : List Expr → Result (List Slot)
  | [] => .ok []
  | p :: ps => do
    let t ← p.emit s
    let slot ← Slot.ofParameter t p
    let slots ← Expr.emitSlots s ps
    return slot :: slots

end

end Scribe
