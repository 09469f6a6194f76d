import Scribe.Build.Expression
import Scribe.Text.Blank

/-!
# Statements from trees

The rules for assignments, control flow and definitions. Imports are skipped. A triple-quoted string
alone in a statement documents what it stands in.
-/

namespace Scribe

namespace Branch

/-! ## Assignments -/

/-- What follows the target of an assignment: its operator, type and value. -/
structure AssignmentTail where
  operator : String
  type : Option String
  value : Option Expr

/-- Reads what follows the target of an assignment; the last of each kind counts. -/
def assignmentTail (inner : Context) (t : AssignmentTail) : List Part → Traced AssignmentTail
  | [] => pure t
  | p :: ps =>
    if p.isToken ":" then assignmentTail inner t ps
    else if p.kind = .type then assignmentTail inner { t with type := some p.text } ps
    else if assignmentOperators.contains p.kind.name then
      assignmentTail inner { t with operator := p.kind.name } ps
    else do
      let e ← p.expression inner
      assignmentTail inner { t with value := some e } ps

/-- An assignment. Without any part the tree is broken. -/
def assignment (b : Branch) (c : Context) : Traced Stmt := do
  let inner := c.within b.kind
  match b.parts with
  | [] => .fail (.defect .missingPart)
  | p :: ps =>
    let left ← p.target inner
    let t ← assignmentTail inner ⟨"=", none, none⟩ ps
    return .assignment left t.value t.operator t.type b.loc

/-- An expression, assignment or documentation as a statement. Several parts make a tuple. -/
def expressionStatement (b : Branch) (c : Context) : Traced Stmt := do
  let inner := c.within b.kind
  match b.parts with
  | [p] =>
    match p.kind with
    | .assignment => p.assignment inner
    | .augmentedAssignment => p.assignment inner
    | kind =>
      if kind = .string && c.holdsStatements && Literal.isTripleQuoted p.text then
        pure (.comment p.text p.loc)
      else .expression <$> p.expression inner
  | _ =>
    let is ← b.items c Part.element
    return .expression (.sequence .tuple is b.loc)

/-! ## Control flow -/

/-- The statements of a body. -/
def body (b : Branch) (c : Context) : Traced (List Stmt) := do
  let ss ← buildEach (·.statement (c.within b.kind)) b.parts
  return ss.filterMap id

/-- A clause of a conditional with a test of its own, or the last resort. -/
def isClause : Kind → Bool
  | .elifClause => true
  | .elseClause => true
  | _ => false

/-- The test and body of a clause. -/
def choiceParts (c : Context) (test : Option Expr) (body : List Stmt) :
    List Part → Traced Choice
  | [] => pure (.mk test body)
  | p :: ps =>
    if p.isTokenOf ["if", "elif", "else", ":"] || isClause p.kind then choiceParts c test body ps
    else if p.kind = .block then do
      let body ← p.body c
      choiceParts c test body ps
    else if test.isNone then do
      let e ← p.expression c
      choiceParts c (some e) body ps
    else p.refuse c

/-- A clause of a conditional. -/
def choice (b : Branch) (c : Context) : Traced Choice :=
  choiceParts c none [] b.parts

/-- A conditional: its own test and body, then its clauses. -/
def conditionalStatement (b : Branch) (c : Context) : Traced Stmt := do
  let inner := c.entering b.kind "if_statement"
  let first ← b.choice inner
  let rest ← buildEach (fun p => p.choice (inner.within p.kind)) (b.parts.filter (isClause ·.kind))
  return .conditional (first :: rest) b.loc

/-- The parts of a loop over a container. -/
structure ForParts where
  left : Option Expr
  right : Option Expr
  body : List Stmt
  afterIn : Bool

/-- Reads the parts of a loop over a container. -/
def forParts (inner : Context) (f : ForParts) : List Part → Traced ForParts
  | [] => pure f
  | p :: ps =>
    if p.isTokenOf ["for", ":"] then forParts inner f ps
    else if p.isToken "in" && !f.afterIn then forParts inner { f with afterIn := true } ps
    else if p.kind = .block then do
      let body ← p.body inner
      forParts inner { f with body := body } ps
    else if !f.afterIn && f.left.isNone then do
      let e ← p.target inner
      forParts inner { f with left := some e } ps
    else if f.afterIn && f.right.isNone then do
      let e ← p.expression inner
      forParts inner { f with right := some e } ps
    else p.refuse inner

/-- A loop over a container. -/
def forStatement (b : Branch) (c : Context) : Traced Stmt := do
  let f ← forParts (c.entering b.kind "for_statement") ⟨none, none, [], false⟩ b.parts
  match f.left, f.right with
  | some left, some right => return .forLoop left right f.body b.loc
  | _, _ => b.refuse c

/-- Reads the test and body of a loop under a condition. -/
def whileParts (inner : Context) (test : Option Expr) (body : List Stmt) :
    List Part → Traced (Option Expr × List Stmt)
  | [] => pure (test, body)
  | p :: ps =>
    if p.isTokenOf ["while", ":"] then whileParts inner test body ps
    else if p.kind = .block then do
      let body ← p.body inner
      whileParts inner test body ps
    else if test.isNone then do
      let e ← p.expression inner
      whileParts inner (some e) body ps
    else p.refuse inner

/-- A loop under a condition. -/
def whileStatement (b : Branch) (c : Context) : Traced Stmt := do
  let (test, body) ← whileParts (c.entering b.kind "while_statement") none [] b.parts
  match test with
  | some t => return .whileLoop t body b.loc
  | none => b.refuse c

/-- The end of a function. -/
def returnStatement (b : Branch) (c : Context) : Traced Stmt := do
  let inner := c.within b.kind
  match b.partsWithout ["return"] with
  | [] => return .returning none b.loc
  | [p] =>
    let e ← p.expression inner
    return .returning (some e) b.loc
  | _ :: second :: _ => second.refuse inner

/-- A thrown error. -/
def raiseStatement (b : Branch) (c : Context) : Traced Stmt := do
  let inner := c.within b.kind
  match b.partsWithout ["raise"] with
  | [] => b.refuse c
  | [p] =>
    let e ← p.expression inner
    return .raising e b.loc
  | _ :: second :: _ => second.refuse inner

/-! ## Definitions -/

/-- The parts of a function. -/
structure FunctionParts where
  name : String
  parameters : List Expr
  returnType : Option String
  body : List Stmt

/-- Reads the parts of a function; the last of each kind counts. -/
def functionParts (inner : Context) (f : FunctionParts) : List Part → Traced FunctionParts
  | [] => pure f
  | p :: ps =>
    if p.isTokenOf ["def", ":", "->"] then functionParts inner f ps
    else match p.kind with
      | .identifier => functionParts inner { f with name := p.text } ps
      | .parameters => do
        let parameters ← p.parameters inner
        functionParts inner { f with parameters := parameters } ps
      | .type => functionParts inner { f with returnType := some p.text } ps
      | .block => do
        let body ← p.body inner
        functionParts inner { f with body := body } ps
      | _ => p.refuse inner

/-- A function with its decorators. -/
def function (b : Branch) (decorators : List String) (c : Context) : Traced Stmt := do
  let f ← functionParts (c.entering b.kind "function") ⟨"", [], none, []⟩ b.parts
  return .function f.name f.parameters f.body f.returnType decorators b.loc

/-- The parts of a class. -/
structure ClassParts where
  name : String
  arguments : Option (List Expr)
  body : List Stmt

/-- Reads the parts of a class; the last of each kind counts. -/
def classParts (inner : Context) (f : ClassParts) : List Part → Traced ClassParts
  | [] => pure f
  | p :: ps =>
    if p.isTokenOf ["class", ":"] then classParts inner f ps
    else match p.kind with
      | .identifier => classParts inner { f with name := p.text } ps
      | .argumentList => do
        let arguments ← p.arguments inner
        classParts inner { f with arguments := some arguments } ps
      | .block => do
        let body ← p.body inner
        classParts inner { f with body := body } ps
      | _ => p.refuse inner

/-- A class with its decorators. -/
def classDefinition (b : Branch) (decorators : List String) (c : Context) : Traced Stmt := do
  let f ← classParts (c.entering b.kind "class") ⟨"", none, []⟩ b.parts
  return .classDefinition f.name f.body f.arguments decorators b.loc

/-- A function or class with its decorators. -/
def definition (b : Branch) (decorators : List String) (c : Context) : Traced Stmt :=
  match b.kind with
  | .classDefinition => b.classDefinition decorators c
  | _ => b.function decorators c

/-- The definition that decorators stand in front of. -/
def decoratedParts (b : Branch) (c : Context) (decorators : List String) :
    List Part → Traced Stmt
  | [] => b.refuse c
  | p :: ps =>
    match p.kind with
    | .decorator => decoratedParts b c (decorators ++ [Text.strip p.text]) ps
    | .functionDefinition => p.definition decorators c
    | .classDefinition => p.definition decorators c
    | _ => p.refuse (c.within b.kind)

/-! ## Roles -/

/-- A statement; imports are skipped. -/
def statement (b : Branch) (c : Context) : Traced (Option Stmt) :=
  match b.kind with
  | .expressionStatement => some <$> b.expressionStatement c
  | .functionDefinition => some <$> b.function [] c
  | .classDefinition => some <$> b.classDefinition [] c
  | .decoratedDefinition => some <$> decoratedParts b c [] b.parts
  | .ifStatement => some <$> b.conditionalStatement c
  | .forStatement => some <$> b.forStatement c
  | .whileStatement => some <$> b.whileStatement c
  | .returnStatement => some <$> b.returnStatement c
  | .raiseStatement => some <$> b.raiseStatement c
  | .passStatement => pure (some (.simple .pass b.loc))
  | .breakStatement => pure (some (.simple .break b.loc))
  | .continueStatement => pure (some (.simple .continue b.loc))
  | .importStatement => .skip b.kind none
  | .importFromStatement => .skip b.kind none
  | .futureImportStatement => .skip b.kind none
  | _ => b.refuse c

end Branch

end Scribe
