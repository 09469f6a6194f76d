import Scribe.Proofs.Emit.Declared
import Scribe.Proofs.Emit.Literals

/-!
# Lexical scoping

Which variable a name stands for depends on the functions and classes
around its place. Each of them is a `Layer` of names, and a place has a
list of layers, the innermost first. `resolve` looks a name up in them:
from inside out, but a class body is seen from directly inside it only.

`Stmt.Under` goes from a statement to the statements it holds, and
`Expr.Reads` from an expression to the parts of it that are written; both
carry the layers along. Neither knows of scopes of the output.

A name is the receiver of a method if the lookup ends at the nearest
method and finds its receiver there (`IsReceiver`). The nearest method
alone does not decide this: a function in between may bind the name again
(`shadowed`). `isReceiver_iff` says that nothing else comes in between.
-/

namespace Scribe

/-! ## Layers -/

/-- The names that a function or a class binds. -/
inductive Layer where
  /-- A function that is a member of a class, with its receiver. -/
  | method (receiver : Option String) (bound : List String)
  /-- Any other function, with or without a name. -/
  | function (bound : List String)
  /-- A class body. -/
  | classBody (bound : List String)
  deriving DecidableEq, Repr

namespace Layer

/-- The layer belongs to a method. -/
def isMethod : Layer → Bool
  | method .. => true
  | _ => false

/-- The layer belongs to a class body. -/
def isClassBody : Layer → Bool
  | classBody _ => true
  | _ => false

end Layer

/-- The place is directly in a class body. -/
def inClassBody (layers : List Layer) : Bool :=
  layers.head?.any Layer.isClassBody

/-- The layer that a name is found in from inside a function: class
bodies are passed over. -/
def lookup (name : String) : List Layer → Option Layer
  | [] => none
  | .method receiver bound :: layers =>
    if name ∈ bound then some (.method receiver bound) else lookup name layers
  | .function bound :: layers =>
    if name ∈ bound then some (.function bound) else lookup name layers
  | .classBody _ :: layers => lookup name layers

/-- **The layer that a name is found in.** Without one it is a name of
the module, or of none. -/
def resolve (name : String) : List Layer → Option Layer
  | .classBody bound :: layers =>
    if name ∈ bound then some (.classBody bound) else lookup name layers
  | layers => lookup name layers

/-- **The name stands for the receiver** of the method around the
place. -/
def IsReceiver (name : String) (layers : List Layer) : Prop :=
  ∃ bound, layers.find? Layer.isMethod = some (.method (some name) bound) ∧
    resolve name layers = some (.method (some name) bound)

/-- The receiver of the nearest method; none across a class body. -/
def inForce : List Layer → Option String
  | .method receiver _ :: _ => receiver
  | .function _ :: layers => inForce layers
  | _ => none

/-- A function inside the nearest method binds the name. -/
def shadowed (name : String) : List Layer → Bool
  | .function bound :: layers => bound.contains name || shadowed name layers
  | _ => false

/-- A receiver is a parameter of its method. -/
def ReceiversBound (layers : List Layer) : Prop :=
  ∀ name bound, .method (some name) bound ∈ layers → name ∈ bound

/-- Where a receiver is in force, the place is not directly in a class
body. -/
theorem resolve_eq_lookup {name receiver : String} {layers : List Layer}
    (h : inForce layers = some receiver) : resolve name layers = lookup name layers := by
  unfold resolve
  split
  · cases h
  · rfl

/-- **Only a function in between takes the name of the receiver.** -/
theorem isReceiver_iff {name : String} {layers : List Layer} (hb : ReceiversBound layers)
    (h : inForce layers = some name) : IsReceiver name layers ↔ shadowed name layers = false := by
  induction layers with
  | nil => cases h
  | cons layer layers ih =>
    cases layer with
    | method receiver bound =>
      obtain rfl : receiver = some name := h
      have hmem : name ∈ bound := hb name bound (List.mem_cons_self ..)
      have hresolve : resolve name (.method (some name) bound :: layers)
          = some (.method (some name) bound) := if_pos hmem
      exact ⟨fun _ => rfl, fun _ => ⟨bound, rfl, hresolve⟩⟩
    | function bound =>
      have hrest := ih (fun n b hmem => hb n b (List.mem_cons_of_mem _ hmem)) h
      by_cases hmem : name ∈ bound
      · have hshadowed : shadowed name (.function bound :: layers) = true := by
          simp [shadowed, hmem]
        have hresolve : resolve name (.function bound :: layers) = some (.function bound) :=
          if_pos hmem
        refine ⟨fun ⟨_, _, hfound⟩ => ?_, fun hnot => ?_⟩
        · rw [hresolve] at hfound
          cases hfound
        · rw [hshadowed] at hnot
          cases hnot
      · -- a function that does not bind the name is passed over by both
        have hshadowed : shadowed name (.function bound :: layers) = shadowed name layers := by
          simp [shadowed, hmem]
        have hlookup : resolve name layers = lookup name layers := resolve_eq_lookup h
        have hresolve : resolve name (.function bound :: layers) = resolve name layers := by
          rw [hlookup]
          exact if_neg hmem
        rw [hshadowed, ← hrest, IsReceiver, IsReceiver, hresolve]
        rfl
    | classBody bound => cases h

/-! ## What constructs bind -/

/-- The name, if the expression is one, with or without a star. -/
def Expr.referenceName? : Expr → Option String
  | .reference name .. => some name
  | _ => none

/-- The names that a statement itself binds in the scope around it. -/
def Stmt.introduces : Stmt → List String
  | .function name .. => [name]
  | .classDefinition name .. => [name]
  | st => (st.left?.elim [] Expr.leaves).filterMap Expr.referenceName?

/-- The names that the statements of a body bind. -/
def localNames (body : List Stmt) : List String :=
  (Stmt.bodyInScope body).flatMap Stmt.introduces

/-- The names of parameters. -/
def parameterNames (parameters : List Expr) : List String :=
  parameters.filterMap Expr.parameterName?

/-- The layers inside a statement, where those around it are given. -/
def Stmt.layersInside (layers : List Layer) : Stmt → List Layer
  | .function _ parameters body _ decorators _ =>
    let bound := parameterNames parameters ++ localNames body
    (if inClassBody layers then .method (methodReceiver decorators parameters) bound
      else .function bound) :: layers
  | .classDefinition _ body _ _ _ => .classBody (localNames body) :: layers
  | _ => layers

/-- The statements in the bodies of a statement. -/
def Stmt.items : Stmt → List Stmt
  | .function _ _ body _ _ _ => body
  | .classDefinition _ body _ _ _ => body
  | .conditional choices _ => Choice.bodies choices
  | .forLoop _ _ body _ => body
  | .whileLoop _ body _ => body
  | _ => []

/-- **What stands inside a statement, and in which layers.** The
statement is in `layers`, and holds `inner` inside `d` bodies. -/
inductive Stmt.Under : List Layer → Stmt → Nat → List Layer → Stmt → Prop
  | self {layers : List Layer} {st : Stmt} : Stmt.Under layers st 0 layers st
  | item {layers layers' : List Layer} {st c inner : Stmt} {d : Nat} : c ∈ st.items →
      Stmt.Under (st.layersInside layers) c d layers' inner →
      Stmt.Under layers st (d + 1) layers' inner

/-- The expressions of a statement in which names are used. The name of a
field is none of them, nor are parameters without a default. -/
def Stmt.uses (layers : List Layer) : Stmt → List Expr
  | .assignment left (some right) _ _ _ => if inClassBody layers then [right] else [left, right]
  | .function _ parameters _ _ _ _ => parameters.filter Expr.isDefaulted
  | .classDefinition _ _ arguments _ _ => (arguments.getD []).filter (!·.isObject)
  | st => st.writes

/-- The written parts of an expression, each with the layers it is in:
defaults belong outside a function, and only its body is inside. -/
def Expr.places (layers : List Layer) : Expr → List (List Layer × Expr)
  | .lambda parameters body _ =>
    (parameters.filter Expr.isDefaulted).map (layers, ·)
      ++ [(.function (parameterNames parameters) :: layers, body)]
  | e => e.shows.map (layers, ·)

/-- **What is written of an expression, and in which layers.** The
expression is in `layers` and shows `x`, moved in by `n` levels. -/
inductive Expr.Reads : List Layer → Expr → Nat → List Layer → Expr → Prop
  | self {layers : List Layer} {e : Expr} : Expr.Reads layers e 0 layers e
  | part {layers layers' : List Layer} {e x : Expr} {n : Nat} {q : List Layer × Expr} :
      q ∈ e.places layers → Expr.Reads q.1 q.2 n layers' x →
      Expr.Reads layers e (e.shift + n) layers' x

end Scribe
