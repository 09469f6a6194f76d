/-!
# Scopes of the output

What the text of a construct depends on besides the construct: whether it stands at the top of the
module, in a function or in a class body, whether it is being assigned to, the name of the receiver
that is written as `this`, and the class around it.

The names that assignments introduce are not part of a scope. They are collected beside it, in the
order of their first assignment (`Hoisted`), and become declarations at the top of a function or
of the module.
-/

namespace Scribe

/-- The kind of body a construct stands in. -/
inductive ScopeKind where
  | top | function | classBody
  deriving DecidableEq, Repr

/-- The kind of body in words. -/
def ScopeKind.name : ScopeKind → String
  | top => "module"
  | function => "function"
  | classBody => "class"

/-- What the text of a construct depends on besides the construct. -/
structure Scope where
  kind : ScopeKind
  /-- The construct is assigned to. -/
  target : Bool
  /-- The name that stands for the object a method is called on. -/
  receiver : Option String
  /-- The class around the construct. -/
  className : Option String
  deriving DecidableEq, Repr

namespace Scope

/-- The scope of a module. -/
def top : Scope := ⟨.top, false, none, none⟩

/-- The scope of what is assigned to. -/
def assigning (s : Scope) : Scope := { s with target := true }

/-- The scope of what is read. -/
def reading (s : Scope) : Scope := { s with target := false }

/-- The scope of a function's body. -/
def enterFunction (s : Scope) (receiver : Option String) : Scope :=
  { s with kind := .function, target := false, receiver := receiver }

/-- The scope of a class body. -/
def enterClass (s : Scope) (name : String) : Scope :=
  { s with kind := .classBody, target := false, receiver := none, className := some name }

end Scope

/-- Assigned names with the types they were annotated with, in the order of first assignment. -/
abbrev Hoisted := List (String × Option String)

namespace Hoisted

/-- The name is recorded. -/
def has (h : Hoisted) (name : String) : Bool :=
  h.any (·.1 == name)

/-- Gives a recorded name another type, in its place. -/
def retype (h : Hoisted) (name : String) (type : Option String) : Hoisted :=
  h.map fun e => if e.1 = name then (name, type) else e

/-- Records a name: a new one comes last; a recorded one gets the type, if there is one. -/
def record (h : Hoisted) (name : String) (type : Option String) : Hoisted :=
  if !h.has name then h ++ [(name, type)]
  else if type.isSome then h.retype name type
  else h

end Hoisted

/-- A scope together with the collection that assignments in it record into. Class bodies have
none. -/
structure Frame where
  scope : Scope
  /-- The number of the collection. -/
  names : Option Nat
  deriving DecidableEq, Repr

/-- Nested scopes, the innermost first, and the collections they record into. A scope that only
changes between reading and assigning shares the collection of the scope around it. -/
structure Frames where
  stack : List Frame
  collections : List Hoisted
  deriving DecidableEq, Repr

namespace Frames

/-- The frames of a module, with or without a collection. -/
def start (collecting : Bool) : Frames :=
  ⟨[⟨.top, if collecting then some 0 else none⟩], [[]]⟩

/-- The innermost frame. -/
def innermost (f : Frames) : Frame :=
  f.stack.headD ⟨.top, none⟩

/-- The collection of the innermost scope. -/
def hoisted (f : Frames) : Option Hoisted :=
  f.innermost.names.map fun i => f.collections.getD i []

/-- Enters a scope that shares the collection. -/
def share (f : Frames) (change : Scope → Scope) : Frames :=
  { f with stack := { f.innermost with scope := change f.innermost.scope } :: f.stack }

/-- Enters a function, with a collection of its own. -/
def enterFunction (f : Frames) (receiver : Option String) : Frames :=
  ⟨⟨f.innermost.scope.enterFunction receiver, some f.collections.length⟩ :: f.stack,
    f.collections ++ [[]]⟩

/-- Enters a class body, without a collection. -/
def enterClass (f : Frames) (name : String) : Frames :=
  { f with stack := ⟨f.innermost.scope.enterClass name, none⟩ :: f.stack }

/-- Records a name in the innermost scope. -/
def record (f : Frames) (name : String) (type : Option String) : Frames :=
  match f.innermost.names with
  | none => f
  | some i => { f with collections := f.collections.modify i (·.record name type) }

/-- Leaves the innermost scope; the outermost one stays. -/
def leave (f : Frames) : Frames :=
  if f.stack.length ≤ 1 then f else { f with stack := f.stack.tail }

end Frames

end Scribe
