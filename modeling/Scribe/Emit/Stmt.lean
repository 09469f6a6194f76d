import Scribe.Emit.Expr
import Scribe.Emit.Hoist

/-!
# Statements and modules in the output

`Stmt.emit` writes a statement as a fragment: functions with their hoisted declarations and options
aliases, classes with their members, control flow, and everything else line by line.

A method's first parameter is its receiver: it is taken off the parameter list and written as
`this` in the body. Functions inside a method see the same receiver.

The output of a module is a list of blocks, in source order: for every top-level statement the
blocks it needs in front of it and then its own, if it has any text. The declarations of the
names assigned at the top level come first, in a block of their own.
-/

namespace Scribe

/-- The text starts with one of the words. -/
def startsWithAny (words : List String) (text : String) : Bool :=
  words.any (·.toList.isPrefixOf text.toList)

/-- A decorator takes the receiver away or makes it the class. -/
def isStatic (decorators : List String) : Bool :=
  decorators.any (startsWithAny ["@staticmethod", "@classmethod"])

/-- A decorator takes the receiver away. -/
def lacksReceiver (decorators : List String) : Bool :=
  decorators.any (startsWithAny ["@staticmethod"])

/-- The receiver of a method and its other parameters. -/
def splitReceiver (decorators : List String) (parameters : List Expr) :
    Option String × List Expr :=
  if lacksReceiver decorators then (none, parameters)
  else match parameters with
    | .reference name none _ :: rest => (some name, rest)
    | .typedParameter name _ none _ :: rest => (some name, rest)
    | _ => (none, parameters)

/-- The receiver in a function's body, and the parameters that are passed. -/
def Scope.splitParameters (s : Scope) (decorators : List String) (parameters : List Expr) :
    Option String × List Expr :=
  if s.kind = .classBody then splitReceiver decorators parameters else (s.receiver, parameters)

/-- The name of a parameter. -/
def Expr.parameterName? : Expr → Option String
  | .reference name .. => some name
  | .defaultParameter name .. => some name
  | .typedParameter name .. => some name
  | .typedDefaultParameter name .. => some name
  | _ => none

/-- The names that parameters bind, as they are written. -/
def boundNames (parameters : List Expr) : List String :=
  (parameters.filterMap Expr.parameterName?).map Identifier.camel

/-- A method that builds an object. -/
def Scope.isConstructor (s : Scope) (name : String) : Bool :=
  s.kind = .classBody && name == constructorName

/-- What a function's options alias would be called. -/
def Scope.optionsName (s : Scope) (name : String) : String :=
  match s.kind, s.className with
  | .classBody, some className =>
    if s.isConstructor name then Identifier.pascal className ++ "Options"
    else Identifier.pascal className ++ Identifier.pascal name ++ "Options"
  | _, _ => Identifier.pascal name ++ "Options"

/-- The opening line of a function. -/
def Scope.functionHeader (s : Scope) (name : String) (decorators parameters : List String)
    (returns : String) : String :=
  let signature := "(" ++ ", ".intercalate parameters ++ ")"
  if s.isConstructor name then "constructor" ++ signature ++ " \x7b"
  else if s.kind = .classBody then
    (if isStatic decorators then "static " else "") ++ Identifier.property name ++ signature
      ++ returns ++ " \x7b"
  else "function " ++ Identifier.camel name ++ signature ++ returns ++ " \x7b"

/-- The mapped return type behind a colon; a constructor has none. -/
def returnsText (isConstructor : Bool) (returnType : Option String) : Result String :=
  match returnType with
  | none => .ok ""
  | some spelling =>
    if isConstructor || spelling.isEmpty then .ok ""
    else do
      let t ← typeName spelling
      return ": " ++ t

/-- Decorators as comment lines. -/
def decoratorLines (decorators : List String) : List String :=
  decorators.map ("// " ++ ·)

/-! ## Class members -/

/-- The base classes that are not left out. A named or starred base is refused. -/
def keptBases : List Expr → Result (List Expr)
  | [] => .ok []
  | base :: bases =>
    match base with
    | .keywordArgument .. =>
      .error (.unsupported base.kind.name NodeKind.classDefinition.name base.loc)
    | .reference _ (some _) _ =>
      .error (.unsupported base.kind.name NodeKind.classDefinition.name base.loc)
    | .reference "object" none _ => keptBases bases
    | _ => do
      let kept ← keptBases bases
      return base :: kept

/-- What follows the name of a class in its opening line. There can be one base class. -/
def extendsText (s : Scope) (arguments : Option (List Expr)) : Result String := do
  match ← keptBases (arguments.getD []) with
  | [] => return ""
  | [base] =>
    let b ← base.emit s.reading
    return " extends " ++ b
  | _ :: second :: _ =>
    throw (.unsupported second.kind.name NodeKind.classDefinition.name second.loc)

/-- A statement that can be a member of a class. -/
def Stmt.isMember : Stmt → Bool
  | .function .. => true
  | .assignment .. => true
  | .comment .. => true
  | .simple .pass _ => true
  | _ => false

/-- An assignment in a class body: a field, with its type and value. -/
def emitField (s : Scope) (left : Expr) (right : Option Expr) (operator : String)
    (type : Option String) : Result Fragment := do
  match left, operator with
  | .reference name _ _, "=" =>
    let t ← match type with
      | none => .ok ""
      | some spelling =>
        if spelling.isEmpty then .ok ""
        else (typeName spelling).map (": " ++ ·)
    let v ← match right with
      | none => .ok ""
      | some e => (e.emit s.reading).map (" = " ++ ·)
    return .ofLines (Text.lines (Identifier.property name ++ t ++ v))
  | _, _ => throw (.unsupported left.kind.name NodeKind.classDefinition.name left.loc)

/-! ## Other statements -/

/-- An assignment outside class bodies. Without a value it has no text. -/
def emitAssignment (s : Scope) (left : Expr) (right : Option Expr) (operator : String)
    (type : Option String) : Result Fragment := do
  match type with
  | none => pure ()
  | some spelling => if spelling.isEmpty then pure () else discard (typeName spelling)
  match right with
  | none => return .empty
  | some e =>
    let l ← left.emit s.assigning
    let r ← e.emit s.reading
    return .ofLines (statementLines (l ++ " " ++ operator ++ " " ++ r))

/-- The end of a function. A value of several lines is put in parentheses. -/
def emitReturn (s : Scope) (value : Option Expr) : Result Fragment := do
  match value with
  | none => return .ofLines ["return"]
  | some e =>
    let t ← e.emit s.reading
    match Text.lines t with
    | [line] => return .ofLines ["return " ++ line]
    | ls => return .ofLines ("return (" :: indent 1 ls ++ [")"])

/-- A thrown error: a call builds it, a name is its class. -/
def emitRaise (s : Scope) (value : Expr) : Result Fragment := do
  let t ← value.emit s.reading
  match value with
  | .call .. => return .ofLines (Text.lines ("throw new " ++ t))
  | .reference .. => return .ofLines ["throw new " ++ t ++ "()"]
  | .member .. => return .ofLines ["throw new " ++ t ++ "()"]
  | e => throw (.unsupported e.kind.name NodeKind.raiseStatement.name e.loc)

/-- A statement without parts. -/
def SimpleKind.fragment : SimpleKind → Fragment
  | .pass => .empty
  | .break => .ofLines ["break"]
  | .continue => .ofLines ["continue"]

/-- The opening line of a choice; `first` says that none precedes it. -/
def choiceOpening (first : Bool) : Option String → String
  | some test => (if first then "if (" else "\x7d else if (") ++ test ++ ") \x7b"
  | none => "\x7d else \x7b"

/-! ## Statements -/

mutual

/-- The written form of a statement. -/
def Stmt.emit (s : Scope) : Stmt → Result Fragment
  | .expression value => do
    let t ← value.emit s
    return .ofLines (statementLines t)
  | .assignment left right operator type _ =>
    if s.kind = .classBody then emitField s left right operator type
    else emitAssignment s left right operator type
  | .function name parameters body returnType decorators _ => do
    let (receiver, passed) := s.splitParameters decorators parameters
    let slots ← Expr.emitSlots s.reading passed
    let (ps, definition) ← (Signature.ofSlots slots).parameters (some (s.optionsName name))
    let b ← Stmt.emitBody (s.enterFunction receiver) body
    let returns ← returnsText (s.isConstructor name) returnType
    let lets := declarations receiver (boundNames passed ++ declaredNames body) body
    return ⟨decoratorLines decorators
      ++ braced (s.functionHeader name decorators ps returns) (lets ++ b.lines),
      definition.toList ++ b.prologue⟩
  | .classDefinition name body arguments decorators _ => do
    let base ← extendsText s arguments
    let b ← Stmt.emitMembers (s.enterClass name) body
    return ⟨decoratorLines decorators
      ++ braced ("class " ++ Identifier.pascal name ++ base ++ " \x7b") b.lines, b.prologue⟩
  | .conditional choices loc => do
    let c ← Stmt.emitChoices s loc true choices
    return ⟨c.lines ++ ["\x7d"], c.prologue⟩
  | .forLoop left right body _ => do
    let l ← left.emit s.assigning
    let r ← right.emit s.reading
    let b ← Stmt.emitBody s body
    return ⟨braced ("for (" ++ l ++ " of " ++ r ++ ") \x7b") b.lines, b.prologue⟩
  | .whileLoop test body _ => do
    let t ← test.emit s.reading
    let b ← Stmt.emitBody s body
    return ⟨braced ("while (" ++ t ++ ") \x7b") b.lines, b.prologue⟩
  | .returning value _ => emitReturn s value
  | .raising value _ => emitRaise s value
  | .simple kind _ => .ok kind.fragment
  | .comment text _ => .ok (.ofLines (Literal.commentLines text))

/-- The written forms of the statements of a body. -/
def Stmt.emitBody (s : Scope) : List Stmt → Result Fragment
  | [] => .ok .empty
  | st :: sts => do
    let a ← st.emit s
    let b ← Stmt.emitBody s sts
    return a ++ b

/-- The written forms of the members of a class. -/
def Stmt.emitMembers (s : Scope) : List Stmt → Result Fragment
  | [] => .ok .empty
  | st :: sts =>
    if !st.isMember then
      .error (.unsupported st.kind.name NodeKind.classDefinition.name st.loc)
    else do
      let a ← st.emit s
      let b ← Stmt.emitMembers s sts
      return a ++ b

/-- The written forms of the choices of a conditional at `loc`, up to the last closing brace. Only
the last choice can lack a test, and only if another precedes it. -/
def Stmt.emitChoices (s : Scope) (loc : Option Location) (first : Bool) :
    List Choice → Result Fragment
  | [] => .ok .empty
  | c :: cs => do
    let a ← c.emit s loc first cs.isEmpty
    let b ← Stmt.emitChoices s loc false cs
    return a ++ b

/-- The written form of a choice, up to its closing brace. -/
def Choice.emit (s : Scope) (loc : Option Location) (first last : Bool) : Choice → Result Fragment
  | .mk test body => do
    if test.isNone && (first || !last) then
      throw (.unsupported NodeKind.ifStatement.name NodeKind.ifStatement.name loc)
    let t ← Expr.emitOption s.reading test
    let b ← Stmt.emitBody s body
    return ⟨choiceOpening first t :: indent 1 b.lines, b.prologue⟩

end

/-! ## Modules -/

/-- The blocks of a top-level statement. -/
def Fragment.blocks (f : Fragment) : List String :=
  f.prologue.map (fun block => assemble [block])
    ++ (if f.lines.isEmpty then [] else [assemble f.lines])

/-- The blocks of top-level statements. -/
def statementBlocks : List Stmt → Result (List String)
  | [] => .ok []
  | s :: ss => do
    let f ← s.emit .top
    let rest ← statementBlocks ss
    return f.blocks ++ rest

/-- The block of the names assigned at the top level, if there are any. -/
def declarationBlock (body : List Stmt) : List String :=
  match declarations none (declaredNames body) body with
  | [] => []
  | ls => [Text.unlines ls]

/-- The blocks of a module. -/
def Program.blocks (p : Program) : Result (List String) := do
  let blocks ← statementBlocks p.body
  return declarationBlock p.body ++ blocks

end Scribe
