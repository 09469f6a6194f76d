import Scribe.Build.Module
import Scribe.Cst.Parsed
import Scribe.Emit.Stmt
import Scribe.Format.Blocks

/-!
# Compilation

From the parsed tree of a source text to the blocks of a module. The stages follow each other
strictly: read the tree, build the abstract syntax, write the blocks, format them. The first fault
ends the compilation, and no partial output is returned; a block that cannot be formatted is not a
fault.
-/

namespace Scribe

/-- What is known after a compilation. -/
structure Compilation where
  /-- What happened, in order. -/
  events : List Event
  /-- The concrete tree, if it could be read. -/
  tree : Option Cst
  /-- The abstract syntax, if it could be built. -/
  program : Option Program
  /-- The blocks, or what ended the compilation. -/
  outcome : Result (List String)

/-- A stage of a compilation. -/
inductive Stage where
  | parse | build | generate
  deriving DecidableEq, Repr

/-- The stage in words. -/
def Stage.name : Stage → String
  | parse => "parse"
  | build => "build"
  | generate => "generate"

namespace Compilation

/-- The last stage that was reached. -/
def stage (c : Compilation) : Stage :=
  match c.tree, c.program with
  | none, _ => .parse
  | some _, none => .build
  | some _, some _ => .generate

/-- The blocks; none after a failure. -/
def blocks (c : Compilation) : List String :=
  match c.outcome with
  | .ok bs => bs
  | .error _ => []

/-- The blocks before formatting; none after a failure. -/
def unformatted (c : Compilation) : List String :=
  match c.program.map Program.blocks with
  | some (.ok bs) => bs
  | _ => []

/-- The text of the module; empty without blocks. -/
def text (c : Compilation) : String :=
  if c.blocks.isEmpty then "" else joinBlocks c.blocks

/-- The fault that ended the compilation, if one did. -/
def fault? (c : Compilation) : Option Fault :=
  match c.outcome with
  | .error (.fault f) => some f
  | _ => none

end Compilation

/-- The event of a failed stage; a defect leaves none. -/
def failureEvents (event : Fault → Event) : Failure → List Event
  | .fault f => [event f]
  | .defect _ => []

/-- The blocks of a program after formatting, and what happened on the way. -/
def generate (format : Option Formatter) (p : Program) : List Event × Result (List String) :=
  match p.blocks with
  | .error e => (failureEvents .generateFailed e, .error e)
  | .ok blocks =>
    match format with
    | none => ([.generated blocks.length], .ok blocks)
    | some f => (.generated blocks.length :: formatEvents f blocks, .ok (formatBlocks f blocks))

/-- The program of a tree, and what happened on the way. -/
def buildProgram (file : String) (tree : Cst) : List Event × Result Program :=
  let built := tree.build file
  let skipped := built.skipped.map Event.skipped
  match built.result with
  | .ok p => (skipped ++ [.built file p.body.length], .ok p)
  | .error e => (skipped ++ failureEvents .buildFailed e, .error e)

/-- Compiles a source text, given its parsed tree. -/
def compile (format : Option Formatter) (file source : String) (parsed : ParsedTree) :
    Compilation :=
  let read := Event.parsed file (Text.encode source.toList).length
  match parsed.read file source with
  | .error (.fault f) => ⟨[.parseFailed f], none, none, .error (.fault f)⟩
  | .error e => ⟨[read], none, none, .error e⟩
  | .ok tree =>
    match buildProgram file tree with
    | (events, .error e) => ⟨read :: events, some tree, none, .error e⟩
    | (events, .ok program) =>
      match generate format program with
      | (more, .error e) => ⟨read :: events ++ more, some tree, some program, .error e⟩
      | (more, .ok blocks) =>
        ⟨read :: events ++ more ++ [.compiled file blocks.length], some tree, some program,
          .ok blocks⟩

end Scribe
