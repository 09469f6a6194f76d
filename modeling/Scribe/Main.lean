import Scribe.CommandLine.Run
import Scribe.Cst.Preorder

/-!
# The command line program

Reads the source and, from standard input, the tree that the parser made of it, and carries out the
command. No formatting tool is started: blocks keep the text they were written with.
-/

namespace Scribe.CommandLine

/-- What a path leads to among the files of the system. -/
def lookUp (path : Path) : IO Target := do
  try
    let bytes ← IO.FS.readBinFile path.text
    return .file bytes.toList
  catch
    | .noFileOrDirectory .. => return .missing
    | _ => return .directory

/-- The tool that the environment asks for. -/
def toolOfEnvironment : IO Tool := do
  let command ← IO.getEnv "PY2TS_PRETTIER"
  let timeout ← IO.getEnv "PY2TS_PRETTIER_TIMEOUT"
  match Tool.ofEnvironment ⟨command, timeout⟩ with
  | .ok tool => return tool
  | .error e => throw (.userError e.message)

/-- Carries out what a report says. -/
def perform (r : Report) : IO UInt32 := do
  match r.written with
  | some (path, text) => IO.FS.writeFile path.text text
  | none => pure ()
  IO.print r.stdout
  IO.eprint r.stderr
  match r.ending with
  | .ok code => return code.toUInt32
  | .error e =>
    IO.eprint (complaint e.message)
    return 1

end Scribe.CommandLine

open Scribe.CommandLine in
/-- The command line program. -/
def main (words : List String) : IO UInt32 := do
  let tool ← toolOfEnvironment
  match Command.ofWords words with
  | .ok (.run file _) =>
    let source := Path.ofText file
    let target ← lookUp source
    let stdin ← IO.getStdin
    let tree ← stdin.readToEnd
    let world : World :=
      ⟨fun path => if path = source then target else .vacant,
        fun _ => Scribe.ParsedTree.ofText? tree, tool, fun _ => .missing, false⟩
    perform (run world words)
  | _ => perform (run ⟨fun _ => .vacant, fun _ => none, tool, fun _ => .missing, false⟩ words)
