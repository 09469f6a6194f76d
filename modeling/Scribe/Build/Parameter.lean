import Scribe.Build.Part

/-!
# Parameters

The five shapes of a parameter: plain, with a default, with a type, with both, and starred.
-/

namespace Scribe

/-- What a starred parameter collects. -/
def Kind.patternSplat? : Kind → Option Splat
  | .listSplatPattern => some .list
  | .dictionarySplatPattern => some .dictionary
  | _ => none

namespace Branch

/-- A starred parameter's name and what it collects. -/
def starred (b : Branch) (c : Context) : Traced (String × Splat) := do
  match b.kind.patternSplat?, b.partsWithout ["*", "**"] with
  | some splat, [p] =>
    let name ← p.name (c.within b.kind)
    return (name, splat)
  | _, _ => b.refuse c

/-- A starred parameter or target. -/
def starredReference (b : Branch) (c : Context) : Traced Expr := do
  let (name, splat) ← b.starred c
  return .reference name (some splat) b.loc

/-- A parameter with a default. -/
def defaultParameter (b : Branch) (c : Context) : Traced Expr := do
  let inner := c.within b.kind
  match b.partsWithout ["="] with
  | [p, d] =>
    let value ← d.expression inner
    let name ← p.name inner
    return .defaultParameter name value b.loc
  | _ => b.refuse c

/-- A parameter with a type; it may be starred. -/
def typedParameter (b : Branch) (c : Context) : Traced Expr := do
  let inner := c.within b.kind
  match b.partsWithout [":"] with
  | [p, t] =>
    if t.kind ≠ .type then b.refuse c
    else if p.kind.patternSplat?.isSome then do
      let (name, splat) ← p.starred inner
      return .typedParameter name t.text (some splat) b.loc
    else do
      let name ← p.name inner
      return .typedParameter name t.text none b.loc
  | _ => b.refuse c

/-- A parameter with a type and a default. -/
def typedDefaultParameter (b : Branch) (c : Context) : Traced Expr := do
  let inner := c.within b.kind
  match b.partsWithout [":", "="] with
  | [p, t, d] =>
    if t.kind ≠ .type then b.refuse c
    else do
      let value ← d.expression inner
      let name ← p.name inner
      return .typedDefaultParameter name t.text value b.loc
  | _ => b.refuse c

/-- A parameter of any shape; separators build nothing. -/
def parameter (b : Branch) (c : Context) : Traced (Option Expr) :=
  match b.kind with
  | .identifier => pure (some b.reference)
  | .defaultParameter => some <$> b.defaultParameter c
  | .typedParameter => some <$> b.typedParameter c
  | .typedDefaultParameter => some <$> b.typedDefaultParameter c
  | .listSplatPattern => some <$> b.starredReference c
  | .dictionarySplatPattern => some <$> b.starredReference c
  | .keywordSeparator => .skip b.kind none
  | .positionalSeparator => .skip b.kind none
  | _ => b.refuse c

/-- A list of parameters. -/
def parameters (b : Branch) (c : Context) : Traced (List Expr) := do
  let inner := c.entering b.kind "parameters"
  let ps ← buildEach (·.parameter inner) (b.partsWithout ["(", ")", ","])
  return ps.filterMap id

/-- The parameters and the body of a function without a name. -/
def lambdaParts (inner : Context) (ps : List Expr) (body : Option Expr) :
    List Part → Traced (List Expr × Option Expr)
  | [] => pure (ps, body)
  | p :: rest =>
    if p.kind = .lambda ∨ p.isToken ":" then lambdaParts inner ps body rest
    else if p.kind = .lambdaParameters then do
      let ps ← p.parameters inner
      lambdaParts inner ps body rest
    else if body.isNone then do
      let e ← p.expression inner
      lambdaParts inner ps (some e) rest
    else p.refuse inner

/-- A function without a name. -/
def lambda (b : Branch) (c : Context) : Traced Expr := do
  let (ps, body) ← lambdaParts (c.within b.kind) [] none b.parts
  match body with
  | some e => return .lambda ps e b.loc
  | none => b.refuse c

end Branch

end Scribe
