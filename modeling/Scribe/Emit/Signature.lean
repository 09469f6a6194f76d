import Scribe.Ast.Basic
import Scribe.Fault
import Scribe.Identifier
import Scribe.TypeName

/-!
# Calling conventions

Parameters with a default, and the collector of named values, are passed together in one object that
a function takes apart; a call passes its named arguments in one object. Everything else is passed
by position.

* `Slot` says how one parameter is passed, and `Signature` collects the slots of a function.
* `Signature.parameters` writes a parameter list. If one of the parameters in the object has a type
  and the function has a name, the object gets a type of its own, the *options alias*.
* `argumentList` writes the arguments of a call.
-/

namespace Scribe

/-- A parameter that is passed by name. -/
structure OptionSlot where
  /-- The name it is passed by. -/
  key : String
  /-- The name it is bound to. -/
  bound : String
  /-- The binding with its default, `bound = default`. -/
  text : String
  /-- Its type, if it has one. -/
  type : Option String
  deriving DecidableEq, Repr

/-- How a parameter is passed. -/
inductive Slot where
  /-- By position. -/
  | positional (text : String)
  /-- By name. -/
  | option (o : OptionSlot)
  /-- It collects the remaining positional arguments. -/
  | rest (text : String)
  /-- It collects the remaining named arguments; its type is as spelled in the source. -/
  | keywords (name : String) (type : Option String)
  deriving DecidableEq, Repr

namespace Slot

/-- How a parameter with the written form `text` is passed. What is no parameter is refused. -/
def ofParameter (text : String) : Expr → Result Slot
  | .reference _ none _ => .ok (.positional text)
  | .typedParameter _ _ none _ => .ok (.positional text)
  | .reference _ (some .list) _ => .ok (.rest text)
  | .typedParameter _ _ (some .list) _ => .ok (.rest text)
  | .reference name (some .dictionary) _ => .ok (.keywords name none)
  | .typedParameter name type (some .dictionary) _ => .ok (.keywords name (some type))
  | .defaultParameter name _ _ =>
    .ok (.option ⟨Identifier.property name, Identifier.camel name, text, none⟩)
  | .typedDefaultParameter name type _ _ => do
    let t ← typeName type
    return .option ⟨Identifier.property name, Identifier.camel name, text, some t⟩
  | e => .error (.unsupported e.kind.name "parameters" e.loc)

end Slot

/-- The parameters of a function by the way they are passed. -/
structure Signature where
  positional : List String
  options : List OptionSlot
  rest : List String
  keywords : Option (String × Option String)
  deriving DecidableEq, Repr

namespace OptionSlot

/-- The entry of the pattern that takes the object apart. -/
def entry (o : OptionSlot) : String :=
  if o.key = o.bound then o.text else o.key ++ ": " ++ o.text

/-- The member of the options alias. -/
def member (o : OptionSlot) : String :=
  o.key ++ "?: " ++ o.type.getD "any"

end OptionSlot

namespace Signature

/-- The signature with another slot at its end. Of several collectors of named values the last one
counts. -/
def add (s : Signature) : Slot → Signature
  | .positional text => { s with positional := s.positional ++ [text] }
  | .option o => { s with options := s.options ++ [o] }
  | .rest text => { s with rest := s.rest ++ [text] }
  | .keywords name type => { s with keywords := some (name, type) }

/-- The signature of a list of slots. -/
def ofSlots (slots : List Slot) : Signature :=
  slots.foldl add ⟨[], [], [], none⟩

/-- Some parameter is passed by name. -/
def hasObject (s : Signature) : Bool :=
  !s.options.isEmpty || s.keywords.isSome

/-- Some parameter that is passed by name has a type. -/
def isTyped (s : Signature) : Bool :=
  s.options.any (·.type.isSome)

/-- The name of the options alias, if there is one. -/
def aliasName? (s : Signature) (name : Option String) : Option String :=
  if s.isTyped then name else none

/-- The pattern that takes the object apart, with its alias and default. -/
def pattern (s : Signature) (aliasName : Option String) : String :=
  let entries := s.options.map OptionSlot.entry
    ++ (match s.keywords with
      | some (name, _) => ["..." ++ Identifier.camel name]
      | none => [])
  "\x7b " ++ ", ".intercalate entries ++ " \x7d"
    ++ (match aliasName with
      | some name => ": " ++ name
      | none => "")
    ++ " = \x7b\x7d"

/-- The member of the options alias for the remaining named values. -/
def indexMember (s : Signature) : Result (List String) :=
  match s.keywords with
  | none => .ok []
  | some (_, none) => .ok ["[key: string]: any"]
  | some (_, some type) => do
    let t ← typeName type
    return ["[key: string]: " ++ t]

/-- The definition of the options alias. -/
def aliasText (s : Signature) (aliasName : Option String) : Result (Option String) :=
  match aliasName with
  | none => .ok none
  | some name => do
    let index ← s.indexMember
    return some ("type " ++ name ++ " = \x7b "
      ++ ", ".intercalate (s.options.map OptionSlot.member ++ index) ++ " \x7d")

/-- The parameter list, and the definition of the options alias if there is one. `name` is what the
alias of this function would be called. -/
def parameters (s : Signature) (name : Option String) : Result (List String × Option String) := do
  let aliasName := s.aliasName? name
  let definition ← s.aliasText aliasName
  let object := if s.hasObject then [s.pattern aliasName] else []
  return (s.positional ++ object ++ s.rest, definition)

end Signature

/-- The argument is passed by name. -/
def Expr.isNamedArgument : Expr → Bool
  | .keywordArgument .. => true
  | .reference _ (some .dictionary) _ => true
  | _ => false

/-- The arguments of a call, each with its written form: the positional ones in order, then one
object with the named ones. -/
def argumentList (arguments : List (Expr × String)) : List String :=
  let named := (arguments.filter (·.1.isNamedArgument)).map (·.2)
  (arguments.filter (!·.1.isNamedArgument)).map (·.2)
    ++ (if named.isEmpty then [] else ["\x7b " ++ ", ".intercalate named ++ " \x7d"])

end Scribe
