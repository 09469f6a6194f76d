import Scribe.Ast.Kind
import Scribe.Cst.Basic
import Scribe.Operator

/-!
# Abstract syntax

A module is a list of statements. Names and literals are carried as they stand in the source;
operators are carried in the vocabulary of `BinaryOp` and `UnaryOp`.

`Expr` holds everything that can stand where a value stands, including what occurs in lists of
parameters and arguments, so that every list of such things has one type. Which of them make sense
where is a property of a program, not of the type.

Every node may carry its place in the source.
-/

namespace Scribe

/-- The notation of a number. -/
inductive NumberKind where
  | integer | float
  deriving DecidableEq, Repr

/-- The notation of a sequence: in square brackets, in parentheses or bare, or as a bare target. -/
inductive SequenceKind where
  | list | tuple | pattern
  deriving DecidableEq, Repr

/-- A statement without parts. -/
inductive SimpleKind where
  | pass | break | continue
  deriving DecidableEq, Repr

/-- An expression, parameter, argument or dictionary entry. -/
inductive Expr where
  /-- A name; a splat collects or spreads. -/
  | reference (name : String) (splat : Option Splat) (loc : Option Location)
  /-- A parameter with a default. -/
  | defaultParameter (name : String) (value : Expr) (loc : Option Location)
  /-- A parameter with a type. -/
  | typedParameter (name type : String) (splat : Option Splat) (loc : Option Location)
  /-- A parameter with a type and a default. -/
  | typedDefaultParameter (name type : String) (value : Expr) (loc : Option Location)
  /-- A call. -/
  | call (callee : Expr) (arguments : List Expr) (loc : Option Location)
  /-- An argument that is passed by name. -/
  | keywordArgument (name : String) (value : Expr) (loc : Option Location)
  /-- A property of an object. -/
  | member (object property : Expr) (loc : Option Location)
  /-- An element of a container. -/
  | subscript (value index : Expr) (loc : Option Location)
  /-- The bounds of a part of a sequence. -/
  | slice (start stop step : Option Expr) (loc : Option Location)
  /-- A binary operation or comparison. -/
  | binary (left : Expr) (op : BinaryOp) (right : Expr) (loc : Option Location)
  /-- A negated truth value. -/
  | not (operand : Expr) (loc : Option Location)
  /-- A unary arithmetic operation. -/
  | unary (op : UnaryOp) (operand : Expr) (loc : Option Location)
  /-- A choice between two values. -/
  | conditional (test consequence alternative : Expr) (loc : Option Location)
  /-- An expression in grouping parentheses. -/
  | parenthesized (inner : Expr) (loc : Option Location)
  /-- A function without a name. -/
  | lambda (parameters : List Expr) (body : Expr) (loc : Option Location)
  /-- A string literal, as written. -/
  | string (text : String) (loc : Option Location)
  /-- A number, as written. -/
  | number (kind : NumberKind) (text : String) (loc : Option Location)
  /-- A truth value. -/
  | boolean (value : Bool) (loc : Option Location)
  /-- The null value. -/
  | null (loc : Option Location)
  /-- A sequence; an item may be missing. -/
  | sequence (kind : SequenceKind) (items : List (Option Expr)) (loc : Option Location)
  /-- A dictionary. -/
  | dictionary (entries : List Expr) (loc : Option Location)
  /-- A key and its value. -/
  | pair (key value : Expr) (loc : Option Location)

mutual

/-- A statement. -/
inductive Stmt where
  /-- An expression for its effect. -/
  | expression (value : Expr)
  /-- An assignment; without a value it only declares. -/
  | assignment (left : Expr) (right : Option Expr) (operator : String) (type : Option String)
      (loc : Option Location)
  /-- A function, with its decorators as written. -/
  | function (name : String) (parameters : List Expr) (body : List Stmt)
      (returnType : Option String) (decorators : List String) (loc : Option Location)
  /-- A class, with its decorators as written. -/
  | classDefinition (name : String) (body : List Stmt) (arguments : Option (List Expr))
      (decorators : List String) (loc : Option Location)
  /-- A chain of guarded bodies. -/
  | conditional (choices : List Choice) (loc : Option Location)
  /-- A loop over the elements of a container. -/
  | forLoop (left right : Expr) (body : List Stmt) (loc : Option Location)
  /-- A loop under a condition. -/
  | whileLoop (test : Expr) (body : List Stmt) (loc : Option Location)
  /-- The end of a function, with or without a value. -/
  | returning (value : Option Expr) (loc : Option Location)
  /-- A thrown error. -/
  | raising (value : Expr) (loc : Option Location)
  /-- A statement without parts. -/
  | simple (kind : SimpleKind) (loc : Option Location)
  /-- A string literal that documents what it stands in. -/
  | comment (text : String) (loc : Option Location)

/-- A body under a test; without a test it is taken when no other was. -/
inductive Choice where
  | mk (test : Option Expr) (body : List Stmt)

end

/-- A module. -/
structure Program where
  body : List Stmt
  loc : Option Location

/-- Any node of the abstract syntax: a module, or a statement or expression. -/
inductive Node where
  | program (p : Program)
  | item (s : Stmt)

/-- The kind of a number. -/
def NumberKind.node : NumberKind → NodeKind
  | integer => .integer
  | float => .float

/-- The kind of a sequence. -/
def SequenceKind.node : SequenceKind → NodeKind
  | list => .list
  | tuple => .tuple
  | pattern => .patternList

/-- The kind of a statement without parts. -/
def SimpleKind.node : SimpleKind → NodeKind
  | pass => .passStatement
  | .break => .breakStatement
  | .continue => .continueStatement

namespace Expr

/-- The kind of an expression. -/
def kind : Expr → NodeKind
  | reference .. => .reference
  | defaultParameter .. => .defaultParameter
  | typedParameter .. => .typedParameter
  | typedDefaultParameter .. => .typedDefaultParameter
  | call .. => .call
  | keywordArgument .. => .keywordArgument
  | member .. => .memberExpression
  | subscript .. => .subscript
  | slice .. => .slice
  | binary .. => .binaryOperator
  | not .. => .notOperator
  | unary .. => .unaryOperator
  | conditional .. => .conditionalExpression
  | parenthesized .. => .parenthesizedExpression
  | lambda .. => .lambda
  | string .. => .string
  | number k .. => k.node
  | boolean .. => .boolean
  | null .. => .null
  | sequence k .. => k.node
  | dictionary .. => .dictionary
  | pair .. => .pair

/-- The place of an expression. -/
def loc : Expr → Option Location
  | reference _ _ l | defaultParameter _ _ l | typedParameter _ _ _ l
  | typedDefaultParameter _ _ _ l | call _ _ l | keywordArgument _ _ l | member _ _ l
  | subscript _ _ l | slice _ _ _ l | binary _ _ _ l | not _ l | unary _ _ l
  | conditional _ _ _ l | parenthesized _ l | lambda _ _ l | string _ l | number _ _ l
  | boolean _ l | null l | sequence _ _ l | dictionary _ l | pair _ _ l => l

end Expr

namespace Stmt

/-- The kind of a statement. -/
def kind : Stmt → NodeKind
  | expression e => e.kind
  | assignment .. => .assignment
  | function .. => .functionDefinition
  | classDefinition .. => .classDefinition
  | conditional .. => .ifStatement
  | forLoop .. => .forStatement
  | whileLoop .. => .whileStatement
  | returning .. => .returnStatement
  | raising .. => .raiseStatement
  | simple k .. => k.node
  | comment .. => .comment

/-- The place of a statement. -/
def loc : Stmt → Option Location
  | expression e => e.loc
  | assignment _ _ _ _ l | function _ _ _ _ _ l | classDefinition _ _ _ _ l | conditional _ l
  | forLoop _ _ _ l | whileLoop _ _ l | returning _ l | raising _ l | simple _ l
  | comment _ l => l

end Stmt

end Scribe
