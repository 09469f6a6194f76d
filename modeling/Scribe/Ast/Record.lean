import Scribe.Ast.Basic

/-!
# Syntax as records

Every node seen as a record: its kind, its fields by name in a fixed order, and its place. Dumps and
listings print records, so that both show the same fields in the same order.
-/

namespace Scribe

/-- A record, or what a field of one holds. -/
inductive Value where
  /-- Nothing. -/
  | absent
  /-- A text. -/
  | text (s : String)
  /-- A truth value. -/
  | flag (b : Bool)
  /-- A member of a fixed vocabulary: the vocabulary, the member's label and its spelling. -/
  | member (family label spelling : String)
  /-- A list. -/
  | list (items : List Value)
  /-- A test (absent for the last resort) and the body under it. -/
  | choice (test : Value) (body : List Value)
  /-- A node. -/
  | record (kind : NodeKind) (fields : List (String × Value)) (loc : Option Location)

namespace Value

/-- An optional text. -/
def ofText? : Option String → Value
  | some s => .text s
  | none => .absent

/-- A list of texts. -/
def ofTexts (ss : List String) : Value :=
  .list (ss.map .text)

/-- A binary operator. -/
def ofBinaryOp (op : BinaryOp) : Value :=
  .member "BinaryOp" op.label op.spelling

/-- A unary operator. -/
def ofUnaryOp (op : UnaryOp) : Value :=
  .member "UnaryOp" op.label op.spelling

/-- An optional splat. -/
def ofSplat? : Option Splat → Value
  | some s => .member "SplatKind" s.label s.word
  | none => .absent

end Value

mutual

/-- An expression as a record. -/
def Expr.value : Expr → Value
  | .reference n s l => .record .reference [("name", .text n), ("splat", .ofSplat? s)] l
  | .defaultParameter n v l =>
    .record .defaultParameter [("name", .text n), ("default", v.value)] l
  | .typedParameter n t s l =>
    .record .typedParameter [("name", .text n), ("type_name", .text t), ("splat", .ofSplat? s)] l
  | .typedDefaultParameter n t v l =>
    .record .typedDefaultParameter
      [("name", .text n), ("type_name", .text t), ("default", v.value)] l
  | .call c as l =>
    .record .call [("callee", c.value), ("arguments", .list (Expr.values as))] l
  | .keywordArgument n v l => .record .keywordArgument [("name", .text n), ("value", v.value)] l
  | .member o p l => .record .memberExpression [("object", o.value), ("property", p.value)] l
  | .subscript v i l => .record .subscript [("value", v.value), ("index", i.value)] l
  | .slice a b c l =>
    .record .slice [("start", Expr.value? a), ("stop", Expr.value? b), ("step", Expr.value? c)] l
  | .binary a op b l =>
    .record .binaryOperator
      [("left", a.value), ("operator", .ofBinaryOp op), ("right", b.value)] l
  | .not e l => .record .notOperator [("expression", e.value)] l
  | .unary op e l =>
    .record .unaryOperator [("operator", .ofUnaryOp op), ("operand", e.value)] l
  | .conditional t c a l =>
    .record .conditionalExpression
      [("test", t.value), ("consequence", c.value), ("alternative", a.value)] l
  | .parenthesized e l => .record .parenthesizedExpression [("expression", e.value)] l
  | .lambda ps b l =>
    .record .lambda [("parameters", .list (Expr.values ps)), ("body", b.value)] l
  | .string t l => .record .string [("value", .text t)] l
  | .number k t l => .record k.node [("value", .text t)] l
  | .boolean b l => .record .boolean [("value", .flag b)] l
  | .null l => .record .null [] l
  | .sequence k is l => .record k.node [("items", .list (Expr.itemValues is))] l
  | .dictionary es l => .record .dictionary [("entries", .list (Expr.values es))] l
  | .pair k v l => .record .pair [("key", k.value), ("value", v.value)] l

/-- Expressions as records. -/
def Expr.values : List Expr → List Value
  | [] => []
  | e :: es => e.value :: Expr.values es

/-- An optional expression as a record. -/
def Expr.value? : Option Expr → Value
  | none => .absent
  | some e => e.value

/-- Items of a sequence as records. -/
def Expr.itemValues : List (Option Expr) → List Value
  | [] => []
  | i :: is => Expr.value? i :: Expr.itemValues is

end

mutual

/-- A statement as a record. -/
def Stmt.value : Stmt → Value
  | .expression e => e.value
  | .assignment l r op t loc =>
    .record .assignment
      [("left", l.value), ("right", Expr.value? r), ("operator", .text op),
        ("type_name", .ofText? t)] loc
  | .function n ps b t ds loc =>
    .record .functionDefinition
      [("name", .text n), ("parameters", .list (Expr.values ps)), ("body", .list (Stmt.values b)),
        ("return_type", .ofText? t), ("decorators", .ofTexts ds)] loc
  | .classDefinition n b as ds loc =>
    .record .classDefinition
      [("name", .text n), ("body", .list (Stmt.values b)),
        ("arguments", match as with
          | none => .absent
          | some as => .list (Expr.values as)),
        ("decorators", .ofTexts ds)] loc
  | .conditional cs loc => .record .ifStatement [("choices", .list (Stmt.choiceValues cs))] loc
  | .forLoop l r b loc =>
    .record .forStatement
      [("left", l.value), ("right", r.value), ("body", .list (Stmt.values b))] loc
  | .whileLoop t b loc =>
    .record .whileStatement [("test", t.value), ("body", .list (Stmt.values b))] loc
  | .returning v loc => .record .returnStatement [("expression", Expr.value? v)] loc
  | .raising v loc => .record .raiseStatement [("expression", v.value)] loc
  | .simple k loc => .record k.node [] loc
  | .comment t loc => .record .comment [("text", .text t)] loc

/-- A body as records. -/
def Stmt.values : List Stmt → List Value
  | [] => []
  | s :: ss => s.value :: Stmt.values ss

/-- A choice as a record. -/
def Choice.value : Choice → Value
  | .mk t b => .choice (Expr.value? t) (Stmt.values b)

/-- Choices as records. -/
def Stmt.choiceValues : List Choice → List Value
  | [] => []
  | c :: cs => c.value :: Stmt.choiceValues cs

end

/-- A module as a record. -/
def Program.value (p : Program) : Value :=
  .record .program [("body", .list (Stmt.values p.body))] p.loc

/-- Any node as a record. -/
def Node.value : Node → Value
  | .program p => p.value
  | .item s => s.value

end Scribe
