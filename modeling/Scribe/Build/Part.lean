import Scribe.Ast.Basic
import Scribe.Build.Context

/-!
# Parts

A node of a concrete tree is built from its children. To its parent a child is a `Part`: its kind,
its text, its place, and what it builds as, for every role that a child can have. A node with its
parts at hand is a `Branch`; the rules of the builder are functions on branches, and only the last
module of the builder folds them over a tree.

Extras (comments and line continuations) are never among the parts.
-/

namespace Scribe

/-- A child as its parent sees it. -/
structure Part where
  kind : Kind
  text : String
  loc : Option Location
  /-- A statement; none if it is skipped. -/
  statement : Context → Traced (Option Stmt)
  /-- A value. -/
  expression : Context → Traced Expr
  /-- An argument of a call or class. -/
  argument : Context → Traced Expr
  /-- An element of a sequence. -/
  element : Context → Traced Expr
  /-- Something that is assigned to. -/
  target : Context → Traced Expr
  /-- A parameter; none if it only separates. -/
  parameter : Context → Traced (Option Expr)
  /-- The statements of a body. -/
  body : Context → Traced (List Stmt)
  /-- A list of arguments. -/
  arguments : Context → Traced (List Expr)
  /-- A list of parameters. -/
  parameters : Context → Traced (List Expr)
  /-- A clause of a conditional. -/
  choice : Context → Traced Choice
  /-- An assignment. -/
  assignment : Context → Traced Stmt
  /-- A function or class with its decorators. -/
  definition : List String → Context → Traced Stmt
  /-- An entry of a dictionary. -/
  entry : Context → Traced Expr
  /-- The bounds of a part of a sequence. -/
  bounds : Context → Traced Expr
  /-- A starred parameter's name and what it collects. -/
  starred : Context → Traced (String × Splat)

/-- A node with its parts. -/
structure Branch where
  kind : Kind
  text : String
  loc : Option Location
  parts : List Part

/-- The part is the token with this name. -/
def Part.isToken (p : Part) (name : String) : Bool :=
  p.kind == .token name

/-- The part is one of the tokens with these names. -/
def Part.isTokenOf (p : Part) (names : List String) : Bool :=
  names.any p.isToken

/-- The failure of a part that has no rule in the context. -/
def Part.refuse {α : Type} (p : Part) (c : Context) : Traced α :=
  c.refuse p.kind p.loc

/-- The name of a part that must be an identifier. -/
def Part.name (p : Part) (c : Context) : Traced String :=
  if p.kind = .identifier then pure p.text else p.refuse c

namespace Branch

/-- The failure of a node that has no rule in the context. -/
def refuse {α : Type} (b : Branch) (c : Context) : Traced α :=
  c.refuse b.kind b.loc

/-- The parts without the tokens with these names. -/
def partsWithout (b : Branch) (names : List String) : List Part :=
  b.parts.filter (!·.isTokenOf names)

/-- A name. -/
def reference (b : Branch) : Expr :=
  .reference b.text none b.loc

end Branch

/-- Builds one thing after another. -/
def buildEach {α β : Type} (build : α → Traced β) : List α → Traced (List β)
  | [] => pure []
  | a :: as => do
    let b ← build a
    let bs ← buildEach build as
    return b :: bs

end Scribe
