import Scribe.Ast.Basic
import Scribe.Emit.Scope
import Scribe.Identifier
import Scribe.TypeName

/-!
# Hoisting

Names that are assigned in a function are declared at its top, and those assigned at the top of the
module in front of everything else. `Stmt.bindings` walks the statements of a body in order, into
the bodies of conditionals and loops but not into functions and classes, and lists what is bound:

* an annotated name, with its type;
* every name that an assignment with a value or a loop assigns to, through nested sequences.

Starred names and the receiver are not bound. `declarations` turns the list into lines, leaving out
the names that the body declares in another way.
-/

namespace Scribe

/-- A bound name, as it is written, and the type it is annotated with. -/
abbrev Binding := String × Option String

mutual

/-- The names that an assignment to the expression binds. -/
def Expr.targets (receiver : Option String) : Expr → List Binding
  | .reference name none _ =>
    if receiver = some name then [] else [(Identifier.camel name, none)]
  | .defaultParameter _ value _ => value.targets receiver
  | .typedDefaultParameter _ _ value _ => value.targets receiver
  | .keywordArgument _ value _ => value.targets receiver
  | .pair key value _ => key.targets receiver ++ value.targets receiver
  | .sequence _ items _ => Expr.itemTargets receiver items
  | _ => []

/-- The names that an assignment to an optional item binds. -/
def Expr.optionTargets (receiver : Option String) : Option Expr → List Binding
  | none => []
  | some e => e.targets receiver

/-- The names that an assignment to items binds. -/
def Expr.itemTargets (receiver : Option String) : List (Option Expr) → List Binding
  | [] => []
  | i :: is => Expr.optionTargets receiver i ++ Expr.itemTargets receiver is

end

/-- The type an annotation denotes; none if there is no annotation or it denotes nothing. -/
def annotatedType (type : Option String) : Option String :=
  match type with
  | none => none
  | some spelling =>
    if spelling.isEmpty then none
    else match typeName spelling with
      | .ok t => if t.isEmpty then none else some t
      | .error _ => none

/-- The binding that an annotation makes. -/
def annotationBinding (left : Expr) (type : Option String) : List Binding :=
  match left, annotatedType type with
  | .reference name _ _, some t => [(Identifier.camel name, some t)]
  | _, _ => []

mutual

/-- What a statement binds in the function around it. -/
def Stmt.bindings (receiver : Option String) : Stmt → List Binding
  | .assignment left right _ type _ =>
    annotationBinding left type
      ++ (match right with
        | some _ => left.targets receiver
        | none => [])
  | .conditional choices _ => Stmt.choiceBindings receiver choices
  | .forLoop left _ body _ => left.targets receiver ++ Stmt.bodyBindings receiver body
  | .whileLoop _ body _ => Stmt.bodyBindings receiver body
  | _ => []

/-- What the statements of a body bind. -/
def Stmt.bodyBindings (receiver : Option String) : List Stmt → List Binding
  | [] => []
  | s :: ss => s.bindings receiver ++ Stmt.bodyBindings receiver ss

/-- What the bodies of a chain of choices bind. -/
def Stmt.choiceBindings (receiver : Option String) : List Choice → List Binding
  | [] => []
  | c :: cs => c.bindings receiver ++ Stmt.choiceBindings receiver cs

/-- What the body of a choice binds. -/
def Choice.bindings (receiver : Option String) : Choice → List Binding
  | .mk _ body => Stmt.bodyBindings receiver body

end

/-- The bindings in order of first assignment, each name once. -/
def Hoisted.ofBindings (bs : List Binding) : Hoisted :=
  bs.foldl (fun h b => h.record b.1 b.2) []

/-- The names that a body declares as functions and classes. -/
def declaredNames (body : List Stmt) : List String :=
  body.filterMap fun s =>
    match s with
    | .function name .. => some (Identifier.camel name)
    | .classDefinition name .. => some (Identifier.pascal name)
    | _ => none

/-- The declaration of a hoisted name. -/
def declaration (b : Binding) : String :=
  match b.2 with
  | some type => if type.isEmpty then "let " ++ b.1 else "let " ++ b.1 ++ ": " ++ type
  | none => "let " ++ b.1

/-- The declarations at the top of a body, without the names in `exclude`. -/
def declarations (receiver : Option String) (exclude : List String) (body : List Stmt) :
    List String :=
  ((Hoisted.ofBindings (Stmt.bodyBindings receiver body)).filter
    (!exclude.contains ·.1)).map declaration

end Scribe
