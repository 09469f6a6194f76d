import Scribe.Decimal.Numeral
import Scribe.Decimal.Shortest
import Scribe.Fault
import Scribe.Shell.Words
import Scribe.Text.Blank
import Scribe.Text.Lines

/-!
# The formatting tool

Blocks are formatted by an outside program that reads a block and writes the formatted text. This
module knows how the tool is called, what the environment can change about it, and what the end of
a run means.
-/

namespace Scribe

/-- How long a run may take, as it was given. -/
inductive Timeout where
  | whole (seconds : Int)
  | decimal (seconds : Binary64)
  deriving DecidableEq, Repr

/-- The number of seconds as it is written. -/
def Timeout.text : Timeout → String
  | whole n => toString n
  | decimal x => x.text

/-- The formatting tool: its command and the limit of a run. -/
structure Tool where
  command : List String
  timeout : Timeout
  deriving DecidableEq, Repr

/-- How a run of the tool ended. -/
inductive ToolRun where
  /-- With a formatted text. -/
  | finished (output : String)
  /-- There is no such program. -/
  | missing
  /-- It took too long. -/
  | timedOut
  /-- With an exit code, and what the tool complained about. -/
  | failed (code : Int) (complaint : Option String)
  deriving DecidableEq, Repr

namespace Tool

/-- The layout that the tool is asked for. -/
def layout : List String :=
  ["--stdin-filepath", "module.ts", "--parser", "typescript", "--no-semi", "--trailing-comma",
    "all", "--single-quote", "--print-width", "72", "--tab-width", "2", "--arrow-parens", "avoid",
    "--quote-props", "as-needed", "--prose-wrap", "always", "--end-of-line", "lf",
    "--single-attribute-per-line"]

/-- The words of a call. -/
def arguments (t : Tool) : List String :=
  t.command ++ layout

/-- A block that the tool could not format. -/
def refusal (message : String) : Failure :=
  .fault ⟨.format message, none⟩

/-- What the end of a run means: the formatted text, or why there is none. A complaint is cut to its
first line. -/
def result (t : Tool) : ToolRun → Result String
  | .finished output => .ok output
  | .missing =>
    match t.command with
    | [] => .error (.defect .missingPart)
    | name :: _ => .error (refusal ("formatter not found: " ++ name))
  | .timedOut => .error (refusal ("formatter timed out after " ++ t.timeout.text ++ "s"))
  | .failed code complaint =>
    match Text.breakLines (Text.strip (complaint.getD "")) with
    | line :: _ => .error (refusal ("formatter failed: " ++ line))
    | [] => .error (refusal ("formatter failed: " ++ toString code))

/-- What the environment can set. -/
structure Environment where
  command : Option String
  timeout : Option String
  deriving DecidableEq, Repr

/-- Why the environment cannot be used. -/
inductive SettingError where
  | command (error : Shell.WordError)
  | timeout (text : String)
  deriving DecidableEq, Repr

/-- The reason in words. -/
def SettingError.message : SettingError → String
  | .command e => e.message
  | .timeout text => "could not convert string to float: " ++ Text.quoted text

/-- The command if the environment sets none. -/
def defaultCommand : String := "npx --no-install prettier"

/-- The limit of a run if the environment sets none. -/
def defaultTimeout : String := "30"

/-- The tool that the environment asks for. The command is read before the limit. -/
def ofEnvironment (e : Environment) : Except SettingError Tool :=
  match Shell.words (e.command.getD defaultCommand) with
  | .error err => .error (.command err)
  | .ok command =>
    match Binary64.ofText? (e.timeout.getD defaultTimeout) with
    | none => .error (.timeout (e.timeout.getD defaultTimeout))
    | some seconds => .ok ⟨command, .decimal seconds⟩

/-- The tool without any setting. -/
def standard : Tool :=
  ⟨["npx", "--no-install", "prettier"], .decimal (.ofScaled false 30 0)⟩

end Tool

/-- A failure in words. -/
def Failure.text : Failure → String
  | .fault f => f.text
  | .defect d => d.message

/-- Formatting by a tool, given how each run ends. -/
def Tool.formatter (t : Tool) (run : String → ToolRun) (block : String) : Except String String :=
  match t.result (run block) with
  | .ok text => .ok text
  | .error e => .error e.text

end Scribe
