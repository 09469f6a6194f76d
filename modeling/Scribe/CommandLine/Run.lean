import Scribe.Ast.Dump
import Scribe.CommandLine.Folder
import Scribe.CommandLine.Options
import Scribe.Compile
import Scribe.Diagnostic
import Scribe.Format.Tool

/-!
# Running a command

A command runs in a world: files, a parser, and a formatting tool. What it does is a report: how it
ended, what it wrote to the two output streams and to which file, and which blocks it handed to the
tool. The report is a function of the world, so nothing else can influence it.

A fault of the source is shown to the user and ends the command with a code. A crash is neither: the
source tree breaks a promise, or the output cannot be written.
-/

namespace Scribe.CommandLine

/-- What a command finds around it. -/
structure World where
  /-- What a path leads to. -/
  find : Path → Target
  /-- The parser; it may fail to return a tree. -/
  parse : String → Option ParsedTree
  /-- The formatting tool. -/
  tool : Tool
  /-- How a run of the tool on a block ends. -/
  runTool : String → ToolRun
  /-- Messages go to a terminal that shows colours. -/
  color : Bool

/-- The world of a command that runs in a folder, with messages in plain text. -/
def World.ofFolder (folder : Folder) (parse : String → Option ParsedTree) (tool : Tool)
    (runTool : String → ToolRun) : World :=
  ⟨folder.find, parse, tool, runTool, false⟩

/-- What breaks a command off. -/
inductive Crash where
  | defect (d : Defect)
  /-- The parser returned no tree. -/
  | noTree
  /-- An outline was asked for, and the tree is a single leaf. -/
  | bareLeaf
  | unnamed (e : PathError)
  | unwritable (e : WriteError)
  deriving DecidableEq, Repr

/-- The reason in words. -/
def Crash.message : Crash → String
  | .defect d => d.message
  | .noTree => "no tree"
  | .bareLeaf => "'Token' object has no attribute 'pretty'"
  | .unnamed e => e.message
  | .unwritable e => e.message

/-- What a command did. -/
structure Report where
  /-- The exit code, or what broke the command off. -/
  ending : Except Crash Nat
  stdout : String
  stderr : String
  /-- The file that was written, and its text. -/
  written : Option (Path × String)
  /-- The blocks that were handed to the tool, in order. -/
  formatted : List String

namespace Report

/-- A command that only writes to the output streams. -/
def quiet (ending : Except Crash Nat) (stdout stderr : String) : Report :=
  ⟨ending, stdout, stderr, none, []⟩

/-- A folder after the command that ran in it. -/
def folderAfter (r : Report) (before : Folder) : Folder :=
  match r.written with
  | none => before
  | some (path, text) =>
    match before.write path (Text.encode text.toList) with
    | .ok after => after
    | .error _ => before

end Report

/-- The lines of the log, each with its newline. -/
def logText (verbose : Bool) (events : List Event) : String :=
  "".intercalate ((logLines verbose events).map (· ++ "\n"))

namespace Options

/-- The blocks are formatted. A dump needs no formatting. -/
def formats (o : Options) : Bool :=
  !(o.noFormat || o.dumpTree || o.dumpSyntax)

/-- Where the output is written; standard output if nowhere. A named place beats the one beside the
source. -/
def outputPath (o : Options) (source : Path) : Except PathError (Option Path) :=
  match o.output with
  | some path => .ok (some (.ofText path))
  | none => if o.write then source.beside.map some else .ok none

end Options

/-- Puts out the text of a module. -/
def deliver (w : World) (o : Options) (source : Path) (text : String) (r : Report) : Report :=
  match o.outputPath source with
  | .error e => { r with ending := .error (.unnamed e) }
  | .ok none => { r with stdout := text }
  | .ok (some path) =>
    match (w.find path).obstacle? path with
    | some e => { r with ending := .error (.unwritable e) }
    | none =>
      { r with
        written := some (path, text)
        stderr := r.stderr ++ logText o.verbose [.wrote path.text] }

/-- What is left to do after a compilation; `r` reports the compilation itself. -/
def conclude (w : World) (o : Options) (path : Path) (source : String) (c : Compilation)
    (r : Report) : Report :=
  match c.outcome with
  | .error (.defect d) => { r with ending := .error (.defect d) }
  | outcome =>
    match o.dumpTree, c.tree, o.dumpSyntax, c.program with
    | true, some tree, _, _ =>
      match tree.outline? with
      | some outline => { r with stdout := outline }
      | none => { r with ending := .error .bareLeaf }
    | _, _, true, some program =>
      { r with stdout := (Node.program program).dump ⟨true, false⟩ ++ "\n" }
    | _, _, _, _ =>
      match outcome with
      | .error (.fault f) =>
        { r with
          ending := .ok 1
          stderr := r.stderr ++ Diagnostic.render w.color f (some source) ++ "\n" }
      | _ => deliver w o path c.text r

/-- Compiles the source that was read from `path`; `log` was written before. -/
def runSource (w : World) (o : Options) (path : Path) (source log : String) : Report :=
  match w.parse source with
  | none => .quiet (.error .noTree) "" log
  | some parsed =>
    let format : Option Formatter := if o.formats then some (w.tool.formatter w.runTool) else none
    let c := compile format path.text source parsed
    conclude w o path source c
      { Report.quiet (.ok 0) "" (log ++ logText o.verbose c.events) with
        formatted := if o.formats then c.unformatted else [] }

/-- Compiles the file at `path`. -/
def runFile (w : World) (o : Options) (path : Path) : Report :=
  let refuse (message : String) := Report.quiet (.ok 1) "" (complaint (message ++ path.text))
  match w.find path with
  | .directory => refuse "not a file: "
  | .file bytes =>
    let log :=
      if path.suffix = Path.sourceSuffix then "" else logText o.verbose [.oddName path.text]
    match Text.decode bytes with
    | .error e => .quiet (.ok 1) "" (log ++ complaint ("could not read file: " ++ e.message))
    | .ok cs => runSource w o path (.ofList (Text.unifyNewlines cs)) log
  | _ => refuse "file not found: "

/-- Runs a command line. -/
def run (w : World) (words : List String) : Report :=
  match Command.ofWords words with
  | .error e => .quiet (.ok 2) "" (usage ++ complaint e.message)
  | .ok .help => .quiet (.ok 0) help ""
  | .ok (.run file options) => runFile w options (.ofText file)

end Scribe.CommandLine
