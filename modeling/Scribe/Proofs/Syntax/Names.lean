import Scribe.Emit.Stmt

/-!
# Receivers, parameters and definitions

What a method is called on, which parameters a call of a function passes,
and which names a body defines, all as the syntax shows it. The emitter
takes a parameter list apart in one go and collects the names in lists;
`splitParameters_eq` and `taken_iff` compare the two, and nothing else
that is specified refers to the emitter's own reading.
-/

namespace Scribe

/-! ## Receivers -/

/-- A decorator says that the method is called on nothing. -/
def saysStatic (decorators : List String) : Bool :=
  decorators.any fun d => "@staticmethod".toList.isPrefixOf d.toList

/-- The name of a parameter with neither a default nor a star. -/
def Expr.singleName? : Expr → Option String
  | .reference name none _ => some name
  | .typedParameter name _ none _ => some name
  | _ => none

/-- **The receiver of a method** is its first parameter, unless that has
a default or a star, or the method is static. -/
def methodReceiver (decorators : List String) (parameters : List Expr) : Option String :=
  if saysStatic decorators then none else parameters.head?.bind Expr.singleName?

/-- The parameters of a method without its receiver. -/
def methodPassed (decorators : List String) (parameters : List Expr) : List Expr :=
  if (methodReceiver decorators parameters).isSome then parameters.tail else parameters

namespace Scope

variable (s : Scope) (decorators : List String) (parameters : List Expr)

/-- **The receiver in force inside a function**: its own if it is a
method, and else the one in force around it. -/
def receiverInside : Option String :=
  if s.kind = .classBody then methodReceiver decorators parameters else s.receiver

/-- The parameters that a call of the function passes. -/
def passed : List Expr :=
  if s.kind = .classBody then methodPassed decorators parameters else parameters

end Scope

/-- A receiver stands in front of the other parameters. -/
theorem exists_of_methodReceiver {decorators : List String} {parameters : List Expr}
    {name : String} (h : methodReceiver decorators parameters = some name) :
    ∃ receiver rest, parameters = receiver :: rest ∧ receiver.singleName? = some name := by
  unfold methodReceiver at h
  split at h
  · cases h
  · obtain ⟨receiver, hhead, hname⟩ := Option.bind_eq_some_iff.1 h
    obtain ⟨rest, hrest⟩ := List.head?_eq_some_iff.1 hhead
    exact ⟨receiver, rest, hrest, hname⟩

theorem lacksReceiver_eq (decorators : List String) :
    lacksReceiver decorators = saysStatic decorators := by
  have hword : startsWithAny ["@staticmethod"] =
      fun d => "@staticmethod".toList.isPrefixOf d.toList := by
    funext d
    rw [startsWithAny, List.any_cons, List.any_nil, Bool.or_false]
  rw [lacksReceiver, saysStatic, hword]

/-- The emitter takes the receiver of a method off its parameters. -/
theorem splitReceiver_eq (decorators : List String) (parameters : List Expr) :
    splitReceiver decorators parameters =
      (methodReceiver decorators parameters, methodPassed decorators parameters) := by
  rw [splitReceiver.eq_def, methodPassed, methodReceiver, lacksReceiver_eq]
  cases saysStatic decorators with
  | true => rfl
  | false =>
    rcases parameters with _ | ⟨p, ps⟩
    · rfl
    · cases p with
      | reference name splat loc => cases splat <;> rfl
      | typedParameter name type splat loc => cases splat <;> rfl
      | _ => rfl

/-- **What the emitter splits a parameter list into.** -/
theorem splitParameters_eq (s : Scope) (decorators : List String) (parameters : List Expr) :
    s.splitParameters decorators parameters =
      (s.receiverInside decorators parameters, s.passed decorators parameters) := by
  rw [Scope.splitParameters, splitReceiver_eq, Scope.receiverInside, Scope.passed]
  split <;> rfl

/-! ## Names that need no declaration -/

/-- The expression is a parameter of this name. -/
def Expr.IsParameter (name : String) : Expr → Prop
  | .reference n .. => n = name
  | .defaultParameter n .. => n = name
  | .typedParameter n .. => n = name
  | .typedDefaultParameter n .. => n = name
  | _ => False

/-- **The statement defines the written name**, as a function or a
class. -/
def Stmt.Defines (n : String) : Stmt → Prop
  | .function name .. => Identifier.camel name = n
  | .classDefinition name .. => Identifier.pascal name = n
  | _ => False

/-- **The written name is taken** in a body: by a parameter that is
passed, or by a function or class that the body itself defines. -/
def Taken (passed : List Expr) (body : List Stmt) (n : String) : Prop :=
  (∃ p ∈ passed, ∃ name, p.IsParameter name ∧ Identifier.camel name = n) ∨
    ∃ st ∈ body, st.Defines n

theorem Expr.isParameter_iff {p : Expr} {name : String} :
    p.IsParameter name ↔ p.parameterName? = some name := by
  cases p <;> simp [Expr.IsParameter, Expr.parameterName?]

theorem mem_boundNames {passed : List Expr} {n : String} :
    n ∈ boundNames passed ↔
      ∃ p ∈ passed, ∃ name, p.IsParameter name ∧ Identifier.camel name = n := by
  simp only [boundNames, List.mem_map, List.mem_filterMap, Expr.isParameter_iff]
  constructor
  · rintro ⟨name, ⟨p, hp, hname⟩, hn⟩
    exact ⟨p, hp, name, hname, hn⟩
  · rintro ⟨p, hp, name, hname, hn⟩
    exact ⟨name, ⟨p, hp, hname⟩, hn⟩

/-- The names that the emitter collects are those that are defined in the body
itself. -/
theorem mem_declaredNames {body : List Stmt} {n : String} :
    n ∈ declaredNames body ↔ ∃ st ∈ body, st.Defines n := by
  rw [declaredNames, List.mem_filterMap]
  refine exists_congr fun st => and_congr_right fun _ => ?_
  cases st <;> simp [Stmt.Defines]

/-- **The names that the emitter leaves out are those that are taken.** -/
theorem taken_iff {passed : List Expr} {body : List Stmt} {n : String} :
    Taken passed body n ↔ n ∈ boundNames passed ++ declaredNames body := by
  rw [List.mem_append, mem_boundNames, mem_declaredNames, Taken]

end Scribe
