import Scribe.TypeName

/-!
# Type expressions

The grammar of types, apart from how they are read. A term is a dotted
name, alone or with arguments in brackets; an expression is a term, or
several with bars between them. Blanks may stand around every term, that
is around bars and commas and inside brackets, so an expression here
carries the blanks it is written with.

What an expression is written as (`TypeExpr.chars`) and what it denotes
(`TypeExpr.type`) both follow the grammar. Neither looks for a bracket, a
comma or a bar in a text.

An argument in brackets may be an ellipsis instead of a type, as in
`Callable[..., int]` and `tuple[int, ...]`. `OpenType` is the grammar with
this form added. Its blanks stand outside: a type has none at its ends, and
what stands around an argument belongs to the list. Expressions are embedded
in it (`TypeExpr.toOpen`), so what is proved of open types holds of them.
-/

namespace Scribe

open Text

/-! ## Names -/

/-- A part of a dotted name. Identifiers of ASCII letters, digits and
underscores are among them. -/
structure Word where
  chars : List Char
  ne_nil : chars ≠ []
  isWord : ∀ c ∈ chars, isWord c = true

/-- The text of a word. -/
def Word.text (w : Word) : String :=
  .ofList w.chars

/-- Words with dots between them. -/
structure DottedName where
  path : List Word
  last : Word

namespace DottedName

/-- The characters of a name. -/
def chars (n : DottedName) : List Char :=
  n.path.flatMap (·.chars ++ ['.']) ++ n.last.chars

/-- The text of a name. -/
def text (n : DottedName) : String :=
  .ofList n.chars

/-- The name inside another one, a module or a class. -/
def under (n p : DottedName) : DottedName :=
  ⟨p.path ++ p.last :: n.path, n.last⟩

/-- The null value. -/
def isNone (n : DottedName) : Bool :=
  n.text == "None"

/-- **What a name alone denotes**: the type it is known by, a container of
anything, or a type of the program. -/
def type (n : DottedName) : String :=
  match TypeName.table.lookup n.text, TypeName.generics.lookup n.text with
  | some type, _ => type
  | none, some generic => if generic = "Record" then "Record<string, any>" else generic ++ "<any>"
  | none, none => Identifier.pascal n.last.text

end DottedName

/-- **What a name with arguments denotes**, given the last word of the name
alone. `first` is the type of the first argument, `types` are those of all
arguments, and `members` the same as members of a union. -/
def appliedType (outer first : String) (types members : List String) : String :=
  if outer = "Optional" then first ++ " | null"
  else if outer = "Union" then " | ".intercalate members
  else if outer = "tuple" ∨ outer = "Tuple" then "[" ++ ", ".intercalate types ++ "]"
  else (TypeName.generics.lookup outer).getD (Identifier.pascal outer)
    ++ "<" ++ ", ".intercalate types ++ ">"

/-! ## Terms and expressions -/

/-- Blank space. -/
structure Blanks where
  chars : List Char
  isBlank : ∀ c ∈ chars, isBlank c = true

/-- No blank space. -/
def Blanks.none : Blanks := ⟨[], nofun⟩

mutual

/-- A type without bars outside brackets. -/
inductive TypeTerm where
  /-- A name. -/
  | name (n : DottedName)
  /-- A name with arguments in brackets. -/
  | generic (n : DottedName) (args : TypeArgs)

/-- A type: one term, or several with bars between them. -/
inductive TypeExpr where
  /-- A term between blanks. -/
  | single (before : Blanks) (term : TypeTerm) (after : Blanks)
  /-- A term between blanks, a bar and what follows it. -/
  | union (before : Blanks) (term : TypeTerm) (after : Blanks) (rest : TypeExpr)

/-- Types with commas between them. -/
inductive TypeArgs where
  /-- The last argument. -/
  | last (t : TypeExpr)
  /-- An argument, a comma and what follows it. -/
  | cons (t : TypeExpr) (rest : TypeArgs)

end

mutual

/-- The characters of a term. -/
def TypeTerm.chars : TypeTerm → List Char
  | .name n => n.chars
  | .generic n args => n.chars ++ '[' :: args.chars ++ [']']

/-- The characters of an expression. -/
def TypeExpr.chars : TypeExpr → List Char
  | .single before term after => before.chars ++ term.chars ++ after.chars
  | .union before term after rest =>
    before.chars ++ term.chars ++ after.chars ++ '|' :: rest.chars

/-- The characters between brackets. -/
def TypeArgs.chars : TypeArgs → List Char
  | .last t => t.chars
  | .cons t rest => t.chars ++ ',' :: rest.chars

end

/-- The text of a term. -/
def TypeTerm.text (t : TypeTerm) : String :=
  .ofList t.chars

/-- The text of an expression. -/
def TypeExpr.text (t : TypeExpr) : String :=
  .ofList t.chars

/-! ## What they denote -/

/-- The null value alone. -/
def TypeTerm.isNone : TypeTerm → Bool
  | .name n => n.isNone
  | .generic .. => false

/-- The null value alone. -/
def TypeExpr.isNone : TypeExpr → Bool
  | .single _ term _ => term.isNone
  | .union .. => false

/-- A member of a union that denotes `type` elsewhere. The null value is
itself there. -/
def memberType (isNone : Bool) (type : String) : String :=
  if isNone then "null" else type

mutual

/-- The type of a term. -/
def TypeTerm.type : TypeTerm → String
  | .name n => n.type
  | .generic n args => appliedType n.last.text args.firstType args.types args.memberTypes

/-- **The type of an expression.** -/
def TypeExpr.type : TypeExpr → String
  | .single _ term _ => term.type
  | .union _ term _ rest =>
    " | ".intercalate (memberType term.isNone term.type :: rest.memberTypes)

/-- The types of the terms of an expression, as members of a union. -/
def TypeExpr.memberTypes : TypeExpr → List String
  | .single _ term _ => [memberType term.isNone term.type]
  | .union _ term _ rest => memberType term.isNone term.type :: rest.memberTypes

/-- The type of the first argument. -/
def TypeArgs.firstType : TypeArgs → String
  | .last t => t.type
  | .cons t _ => t.type

/-- The types of arguments. -/
def TypeArgs.types : TypeArgs → List String
  | .last t => [t.type]
  | .cons t rest => t.type :: rest.types

/-- The types of arguments, as members of a union. -/
def TypeArgs.memberTypes : TypeArgs → List String
  | .last t => [memberType t.isNone t.type]
  | .cons t rest => memberType t.isNone t.type :: rest.memberTypes

end

/-! ## Types with ellipses -/

mutual

/-- A type in which arguments may be left open. -/
inductive OpenType where
  /-- A name. -/
  | name (n : DottedName)
  /-- A name with arguments in brackets. -/
  | generic (n : DottedName) (args : OpenArgs)
  /-- Two types with a bar and blanks between them. -/
  | union (left : OpenType) (after before : Blanks) (right : OpenType)

/-- An argument. -/
inductive OpenArg where
  /-- An ellipsis. -/
  | dots
  /-- A type. -/
  | type (t : OpenType)

/-- Arguments between blanks, with commas between them. -/
inductive OpenArgs where
  /-- The last argument. -/
  | last (before : Blanks) (arg : OpenArg) (after : Blanks)
  /-- An argument, a comma and what follows it. -/
  | cons (before : Blanks) (arg : OpenArg) (after : Blanks) (rest : OpenArgs)

end

mutual

/-- The characters of a type. -/
def OpenType.chars : OpenType → List Char
  | .name n => n.chars
  | .generic n args => n.chars ++ '[' :: args.chars ++ [']']
  | .union left after before right =>
    left.chars ++ after.chars ++ '|' :: (before.chars ++ right.chars)

/-- The characters of an argument. -/
def OpenArg.chars : OpenArg → List Char
  | .dots => "...".toList
  | .type t => t.chars

/-- The characters between brackets. -/
def OpenArgs.chars : OpenArgs → List Char
  | .last before arg after => before.chars ++ arg.chars ++ after.chars
  | .cons before arg after rest => before.chars ++ arg.chars ++ after.chars ++ ',' :: rest.chars

end

/-- The text of a type between blanks. -/
def OpenType.text (before : Blanks) (t : OpenType) (after : Blanks) : String :=
  .ofList (before.chars ++ t.chars ++ after.chars)

/-- The null value alone. -/
def OpenType.isNone : OpenType → Bool
  | .name n => n.isNone
  | .generic .. => false
  | .union .. => false

/-- The null value alone. -/
def OpenArg.isNone : OpenArg → Bool
  | .dots => false
  | .type t => t.isNone

/-- What a name with arguments denotes, of which `kept` are no ellipses. Only
a tuple drops the ellipses. -/
def filledType (outer : String) (types kept members : List String) : String :=
  appliedType outer (types.headD "")
    (if outer = "tuple" ∨ outer = "Tuple" then kept else types) members

mutual

/-- **The type of an open type.** -/
def OpenType.type : OpenType → String
  | .name n => n.type
  | .generic n args => filledType n.last.text args.types args.keptTypes args.memberTypes
  | .union left _ _ right => " | ".intercalate (left.memberTypes ++ right.memberTypes)

/-- The types between the bars, as members of a union. -/
def OpenType.memberTypes : OpenType → List String
  | .name n => [memberType n.isNone n.type]
  | .generic n args => [filledType n.last.text args.types args.keptTypes args.memberTypes]
  | .union left _ _ right => left.memberTypes ++ right.memberTypes

/-- The type of an argument. An ellipsis denotes the empty text. -/
def OpenArg.denoted : OpenArg → String
  | .dots => ""
  | .type t => t.type

/-- The type of an argument, unless it is an ellipsis. -/
def OpenArg.keptTypes : OpenArg → List String
  | .dots => []
  | .type t => [t.type]

/-- The types of arguments. -/
def OpenArgs.types : OpenArgs → List String
  | .last _ arg _ => [arg.denoted]
  | .cons _ arg _ rest => arg.denoted :: rest.types

/-- The types of the arguments that are no ellipses. -/
def OpenArgs.keptTypes : OpenArgs → List String
  | .last _ arg _ => arg.keptTypes
  | .cons _ arg _ rest => arg.keptTypes ++ rest.keptTypes

/-- The types of arguments, as members of a union. -/
def OpenArgs.memberTypes : OpenArgs → List String
  | .last _ arg _ => [memberType arg.isNone arg.denoted]
  | .cons _ arg _ rest => memberType arg.isNone arg.denoted :: rest.memberTypes

end

/-! ## Expressions as open types -/

/-- The blanks in front of an expression. -/
def TypeExpr.before : TypeExpr → Blanks
  | .single before _ _ => before
  | .union before _ _ _ => before

/-- The blanks behind an expression. -/
def TypeExpr.after : TypeExpr → Blanks
  | .single _ _ after => after
  | .union _ _ _ rest => rest.after

mutual

/-- A term as an open type. -/
def TypeTerm.toOpen : TypeTerm → OpenType
  | .name n => .name n
  | .generic n args => .generic n args.toOpen

/-- **An expression as an open type.** Its outer blanks are left out. -/
def TypeExpr.toOpen : TypeExpr → OpenType
  | .single _ term _ => term.toOpen
  | .union _ term after rest => .union term.toOpen after rest.before rest.toOpen

/-- Arguments as those of an open type. -/
def TypeArgs.toOpen : TypeArgs → OpenArgs
  | .last t => .last t.before (.type t.toOpen) t.after
  | .cons t rest => .cons t.before (.type t.toOpen) t.after rest.toOpen

end

mutual

/-- A term has no outer blanks. -/
theorem TypeTerm.chars_toOpen : ∀ t : TypeTerm, t.toOpen.chars = t.chars
  | .name _ => rfl
  | .generic n args => by rw [TypeTerm.toOpen, OpenType.chars, args.chars_toOpen, TypeTerm.chars]

/-- **The embedding keeps the characters**, apart from the outer blanks. -/
theorem TypeExpr.chars_toOpen : ∀ t : TypeExpr,
    t.before.chars ++ t.toOpen.chars ++ t.after.chars = t.chars
  | .single before term after => by
    rw [TypeExpr.toOpen, term.chars_toOpen, TypeExpr.before, TypeExpr.after, TypeExpr.chars]
  | .union before term after rest => by
    rw [TypeExpr.toOpen, OpenType.chars, term.chars_toOpen, TypeExpr.chars, ← rest.chars_toOpen]
    simp [TypeExpr.before, TypeExpr.after]

theorem TypeArgs.chars_toOpen : ∀ args : TypeArgs, args.toOpen.chars = args.chars
  | .last t => by
    rw [TypeArgs.toOpen, OpenArgs.chars, OpenArg.chars, t.chars_toOpen, TypeArgs.chars]
  | .cons t rest => by
    rw [TypeArgs.toOpen, OpenArgs.chars, OpenArg.chars, t.chars_toOpen, rest.chars_toOpen,
      TypeArgs.chars]

end

theorem TypeTerm.isNone_toOpen (t : TypeTerm) : t.toOpen.isNone = t.isNone := by
  cases t <;> rfl

theorem TypeExpr.isNone_toOpen (t : TypeExpr) : t.toOpen.isNone = t.isNone := by
  cases t with
  | single before term after => exact term.isNone_toOpen
  | union before term after rest => rfl

/-- A term is the one member of a union that it is. -/
theorem TypeTerm.memberTypes_toOpen (t : TypeTerm) :
    t.toOpen.memberTypes = [memberType t.isNone t.toOpen.type] := by
  cases t <;> rfl

/-- The first argument is the first of all. -/
theorem TypeArgs.firstType_eq (args : TypeArgs) : args.firstType = args.types.headD "" := by
  cases args <;> rfl

mutual

theorem TypeTerm.type_toOpen : ∀ t : TypeTerm, t.toOpen.type = t.type
  | .name _ => rfl
  | .generic n args => by
    rw [TypeTerm.toOpen, OpenType.type, args.types_toOpen, args.keptTypes_toOpen,
      args.memberTypes_toOpen, filledType, ite_self, ← args.firstType_eq, TypeTerm.type]

/-- **The embedding keeps what is denoted.** -/
theorem TypeExpr.type_toOpen : ∀ t : TypeExpr, t.toOpen.type = t.type
  | .single _ term _ => term.type_toOpen
  | .union _ term _ rest => by
    rw [TypeExpr.toOpen, OpenType.type, term.memberTypes_toOpen, term.type_toOpen,
      rest.memberTypes_toOpen, List.singleton_append, TypeExpr.type]

/-- Between the bars stand the same members. -/
theorem TypeExpr.memberTypes_toOpen : ∀ t : TypeExpr, t.toOpen.memberTypes = t.memberTypes
  | .single _ term _ => by
    rw [TypeExpr.toOpen, term.memberTypes_toOpen, term.type_toOpen, TypeExpr.memberTypes]
  | .union _ term _ rest => by
    rw [TypeExpr.toOpen, OpenType.memberTypes, term.memberTypes_toOpen, term.type_toOpen,
      rest.memberTypes_toOpen, List.singleton_append, TypeExpr.memberTypes]

theorem TypeArgs.types_toOpen : ∀ args : TypeArgs, args.toOpen.types = args.types
  | .last t => congrArg ([·]) t.type_toOpen
  | .cons t rest => List.cons_eq_cons.2 ⟨t.type_toOpen, rest.types_toOpen⟩

/-- There is no ellipsis to drop. -/
theorem TypeArgs.keptTypes_toOpen : ∀ args : TypeArgs, args.toOpen.keptTypes = args.types
  | .last t => congrArg ([·]) t.type_toOpen
  | .cons t rest => List.cons_eq_cons.2 ⟨t.type_toOpen, rest.keptTypes_toOpen⟩

theorem TypeArgs.memberTypes_toOpen : ∀ args : TypeArgs,
    args.toOpen.memberTypes = args.memberTypes
  | .last t => by
    rw [TypeArgs.toOpen, OpenArgs.memberTypes, OpenArg.isNone, OpenArg.denoted, t.isNone_toOpen,
      t.type_toOpen, TypeArgs.memberTypes]
  | .cons t rest => by
    rw [TypeArgs.toOpen, OpenArgs.memberTypes, OpenArg.isNone, OpenArg.denoted, t.isNone_toOpen,
      t.type_toOpen, rest.memberTypes_toOpen, TypeArgs.memberTypes]

end

end Scribe
